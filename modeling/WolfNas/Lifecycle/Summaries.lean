import WolfNas.Lifecycle.Grouped
import Mathlib.Order.Interval.Finset.Nat

/-!
# What the views say of the lacking episodes

The lacking episodes of a TV subscription are kept in a record of their own, which four operations
of the repository write.  The views of the life cycles report how many episodes are there and which
ones are lacking.  They count the lacking ones by the current episode, as if all later ones were
lacking, and they find the record by its identity, which one of the four operations fills in.

## Main definitions

* `LackRecord` — a row of `SUBSCRIBE_TV_EPISODES`; `EpisodeWriter.write` — the four operations.
* `EpisodeRow` — a TV subscription with its record.
* `EpisodeRow.summary`, `listSubscriptionSummaries` — the view of an identity.
* `EpisodeRow.Reported` — the views report the record; `EpisodeRow.Kept` — the condition.

## Main results

* `EpisodeRow.missingEpisodes_eq` — which episodes are reported as lacking.
* `EpisodeRow.reported_iff` — when the views report the record.
-/

namespace WolfNas

open Text

/-! ## The record -/

/-- A row of `SUBSCRIBE_TV_EPISODES`; its `RSSID` is the id of a subscription. -/
structure LackRecord where
  episodes : List ℕ
  identityId : Option Text := none
  deriving DecidableEq, Repr

/-- The column of the episodes. -/
def LackRecord.column (record : LackRecord) : Text :=
  List.intercalate [','] (record.episodes.map ofNat)

/-- The episodes that the views read in that column. -/
def parseEpisodes (column : Text) : List ℕ :=
  ((column.splitOn ',').filter fun part => isDigit (strip part)).map fun part => toNat (strip part)

/-- The operations that write the record of a subscription. -/
inductive EpisodeWriter
  /-- `update_rss_tv`, with a current episode. -/
  | updateRssTv
  /-- `update_rss_tv_lack`. -/
  | updateRssTvLack
  /-- `update_rss_tv_total`. -/
  | updateRssTvTotal
  /-- `update_rss_tv_episodes`. -/
  | updateRssTvEpisodes
  deriving DecidableEq, Repr

/-- The identity that an operation writes along with the episodes: that of the subscription, where
it has one. -/
def EpisodeWriter.scope (writer : EpisodeWriter) (identityId : Text) : Option Text :=
  match writer with
  | updateRssTvEpisodes => if identityId = [] then none else some identityId
  | updateRssTv | updateRssTvLack | updateRssTvTotal => none

/-- The record after an operation.  One that exists keeps what is not written. -/
def EpisodeWriter.write (writer : EpisodeWriter) (identityId : Text) (episodes : List ℕ)
    (record : Option LackRecord) : LackRecord where
  episodes := episodes
  identityId := (writer.scope identityId).or (record.bind LackRecord.identityId)

/-! ## The views -/

/-- A TV subscription, with its record. -/
structure EpisodeRow extends LifecycleSubscription where
  record : Option LackRecord := none

/-- What `list_subscription_summaries` tells of a subscription. -/
structure SubscriptionSummary where
  season : Text
  totalEp : ℕ
  currentEp : ℕ
  completedEp : ℕ
  missingEpisodes : List ℕ
  state : Text
  name : Option Text
  year : Option Text
  anchorProvider : Option Text
  contentProfile : Text
  userId : Option ℕ
  deriving DecidableEq

namespace EpisodeRow

variable (row : EpisodeRow)

/-- `missing_by_rss.get(str(row.ID), [])`, where the records of the identity are asked for. -/
def missingByRss : List ℕ :=
  match row.record with
  | some record =>
    if record.identityId = some row.identityId then parseEpisodes record.column else []
  | none => []

/-- The summary of a subscription. -/
def summary : SubscriptionSummary where
  season := row.season
  totalEp := row.totalValue
  currentEp := row.currentEp
  completedEp := row.completedValue
  missingEpisodes := row.missingByRss
  state := row.state
  name := row.name
  year := row.year
  anchorProvider := row.provider
  contentProfile := row.contentProfile
  userId := row.userId

end EpisodeRow

/-- `list_subscription_summaries`: the subscriptions of an identity that a user sees, by their
seasons. -/
def listSubscriptionSummaries (rows : List EpisodeRow) (sees : Option ℕ → Bool) (identity : Text) :
    List SubscriptionSummary :=
  ((rows.filter fun row => row.identityId = identity ∧ sees row.userId).insertionSort
    fun row row' => ¬row'.season < row.season).map EpisodeRow.summary

namespace EpisodeRow

variable (row : EpisodeRow)

/-- The views report the record: the episodes that are there are those that it does not have, and
those that are lacking are its own. -/
structure Reported : Prop where
  summaries : ∀ (rows : List EpisodeRow) (sees : Option ℕ → Bool), row ∈ rows →
    row.identityId ≠ [] → sees row.userId → ∀ record ∈ row.record,
      ∃ summary ∈ listSubscriptionSummaries rows sees row.identityId, summary = row.summary ∧
        summary.completedEp = row.totalValue - record.episodes.length ∧
          summary.missingEpisodes = record.episodes
  grouped : ∀ (s : LifecycleStore) (x : LifecycleGroup), row.identityId ≠ [] →
    x.item.identityId = row.identityId →
    s.subscriptionOf row.identityId = some row.toLifecycleSubscription → row.totalValue ≠ 0 →
      ∀ record ∈ row.record, (s.applySubscription x).subscribedEpisodes =
        some (row.totalValue - record.episodes.length)
  active : ∀ now, row.identityId ≠ [] → ∀ record ∈ row.record,
    (row.toItem false now).completedEpisodes = row.totalValue - record.episodes.length

/-- The lacking episodes are as many as those from the current one on, where that is one of the
season, or else as many as the row says. -/
def Counted (episodes : List ℕ) : Prop :=
  if 0 < row.currentEp ∧ row.currentEp ≤ row.totalValue then
    min row.totalValue episodes.length = row.totalValue + 1 - row.currentEp
  else min row.totalValue episodes.length = min row.totalValue row.lack

/-- The condition: the lacking episodes are counted right, and the record has the identity of the
subscription if there are any. -/
def Kept : Prop :=
  row.identityId ≠ [] → ∀ record ∈ row.record,
    row.Counted record.episodes ∧
      (record.episodes = [] ∨ record.identityId = some row.identityId)

end EpisodeRow

/-! ## The record is read as it was written -/

theorem parseEpisodes_column (record : LackRecord) :
    parseEpisodes record.column = record.episodes := by
  obtain ⟨episodes, identityId⟩ := record
  unfold LackRecord.column parseEpisodes
  cases episodes with
  | nil => rfl
  | cons e rest =>
    have hcomma : ∀ part ∈ (e :: rest).map ofNat, ',' ∉ part := by
      intro part hpart hmem
      obtain ⟨n, -, rfl⟩ := List.mem_map.mp hpart
      cases isDigit_of_mem_ofNat hmem
    have hdigits : ∀ part ∈ (e :: rest).map ofNat, isDigit (strip part) = true := by
      intro part hpart
      obtain ⟨n, -, rfl⟩ := List.mem_map.mp hpart
      rw [strip_ofNat, isDigit_ofNat]
    rw [List.splitOn_intercalate ',' hcomma (List.cons_ne_nil _ _),
      List.filter_eq_self.mpr hdigits, List.map_map]
    refine List.map_id'' (fun n => ?_) (e :: rest)
    rw [Function.comp_apply, strip_ofNat, toNat_ofNat]

namespace EpisodeRow

variable {row : EpisodeRow} {record : LackRecord}

/-- **The lacking episodes that are reported** are those of the record, if it has the identity of
the subscription. -/
theorem missingEpisodes_eq (h : row.record = some record) :
    row.summary.missingEpisodes =
      if record.identityId = some row.identityId then record.episodes else [] := by
  simp [summary, missingByRss, h, parseEpisodes_column]

theorem missingEpisodes_eq_iff (h : row.record = some record) :
    row.summary.missingEpisodes = record.episodes ↔
      record.episodes = [] ∨ record.identityId = some row.identityId := by
  rw [missingEpisodes_eq h]
  split_ifs with hscope
  · exact iff_of_true rfl (.inr hscope)
  · rw [eq_comm, or_iff_left hscope]

/-- The episodes that are there are counted right. -/
theorem completedValue_eq_iff {episodes : List ℕ} :
    row.completedValue = row.totalValue - episodes.length ↔ row.Counted episodes := by
  unfold LifecycleSubscription.completedValue LifecycleSubscription.lackValue Counted
  have hpos : (row.totalValue ≠ 0 ∧ 0 < row.currentEp ∧ row.currentEp ≤ row.totalValue) ↔
      0 < row.currentEp ∧ row.currentEp ≤ row.totalValue := by
    omega
  simp only [hpos]
  split_ifs <;> omega

/-- The subscription of an identity that is shown is one of its rows. -/
theorem subscribed_of_subscriptionOf {s : LifecycleStore} {identity : Text}
    {sub : LifecycleSubscription} (h : s.subscriptionOf identity = some sub) :
    s.Subscribed identity := by
  unfold LifecycleStore.subscriptionOf at h
  split_ifs at h with hidentity
  have hmem := List.argmax_mem h
  rw [List.mem_filter, decide_eq_true_eq] at hmem
  exact ⟨hidentity, sub, List.mem_append_left _ hmem.1, hmem.2⟩

/-- The episodes that the list of all identities shows for a subscription. -/
theorem subscribedEpisodes_applySubscription {s : LifecycleStore} {x : LifecycleGroup}
    {sub : LifecycleSubscription} (h : s.subscriptionOf x.item.identityId = some sub)
    (htotal : sub.totalValue ≠ 0) :
    (s.applySubscription x).subscribedEpisodes = some sub.completedValue := by
  have hsubscribed := subscribed_of_subscriptionOf h
  have hshow : ∀ y : LifecycleGroup,
      (LifecycleStore.showState sub y).subscribedEpisodes = y.subscribedEpisodes := by
    intro y
    simp only [LifecycleStore.showState]
    split_ifs <;> (try split) <;> rfl
  have hle : sub.completedValue ≤ sub.totalValue := Nat.sub_le _ _
  simp only [LifecycleStore.applySubscription, hsubscribed, not_true_eq_false, false_and, if_false,
    h, hshow, LifecycleStore.countTotal, htotal, ne_eq, not_false_eq_true, if_true,
    min_eq_right hle]

/-! ## When the views report the record -/

variable (row) in
/-- **The views report the record**, exactly if the lacking episodes are as many as the current
episode, or else the row, says, and the record has the identity of the subscription or lacks
nothing. -/
theorem reported_iff : row.Reported ↔ row.Kept := by
  constructor
  · intro hreported hidentity record hrecord
    have hmem : row ∈ [row] := List.mem_singleton_self row
    obtain ⟨_, -, rfl, hcompleted, hmissing⟩ :=
      hreported.summaries [row] (fun _ => true) hmem hidentity rfl record hrecord
    exact ⟨completedValue_eq_iff.mp hcompleted, (missingEpisodes_eq_iff hrecord).mp hmissing⟩
  · intro hkept
    have hcompleted : row.identityId ≠ [] → ∀ record ∈ row.record,
        row.completedValue = row.totalValue - record.episodes.length :=
      fun hidentity record hrecord => completedValue_eq_iff.mpr (hkept hidentity record hrecord).1
    constructor
    · intro rows sees hrow hidentity hsees record hrecord
      refine ⟨row.summary, ?_, rfl, hcompleted hidentity record hrecord,
        (missingEpisodes_eq_iff hrecord).mpr (hkept hidentity record hrecord).2⟩
      refine List.mem_map_of_mem ((List.mem_insertionSort _).mpr (List.mem_filter.mpr ⟨hrow, ?_⟩))
      rw [decide_eq_true_eq]
      exact ⟨rfl, hsees⟩
    · intro s x hidentity hx hsub htotal record hrecord
      rw [← hcompleted hidentity record hrecord]
      exact subscribedEpisodes_applySubscription (hx ▸ hsub) htotal
    · intro now hidentity record hrecord
      exact hcompleted hidentity record hrecord

/-- A subscription to a season of twelve episodes that lacks the second and the last one. -/
def gappySeason : EpisodeRow where
  identityId := of "01"
  state := of "R"
  total := 12
  currentEp := 2
  lack := 2
  record := some (EpisodeWriter.updateRssTvLack.write (of "01") [2, 12] none)

/-- One episode is reported to be there, and none to be lacking. -/
theorem not_reported_gappySeason : ¬∀ row : EpisodeRow, row.Reported := by
  intro h
  have hcompleted := (h gappySeason).active 0 (by decide) _ rfl
  revert hcompleted
  decide +kernel

end EpisodeRow

end WolfNas
