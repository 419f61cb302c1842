import WolfNas.Media.EpisodeReaders
import WolfNas.Subscribe.Siblings

/-!
# Writing the downloads of an RSS round back to the subscriptions

The downloader hands back the items it has downloaded and the seasons that are still needed.  For
each item either the list of lacking episodes of its subscription is cleared, which is then taken
to be complete, or what is left of its season is stored as the list.  Which of the two happens
goes by the series of the item: as long as any of its seasons is needed, nothing is cleared.

## Main definitions

* `DownloadedItem`, `RoundSubscription` — an item, and a subscription with the season it needs.
* `WriteBack.course` — what is done with an item.
* `WriteBack.Taken`, `WriteBack.Taken.writes`, `WriteBack.Taken.next` — one turn of the loop.
* `WriteBack.turns`, `WriteBack.written` — the loop.
* `WriteBack.Clears`, `WriteBack.Stores` — an item clears a list, or stores another.
* `WriteBack.LastSays`, `WriteBack.Settled` — what the last item says that clears or stores a list,
  and the condition on a subscription.
* `WriteBack.Right` — what the list of a subscription is to be.

## Main results

* `WriteBack.right_iff` — when the lists of a round's subscriptions are right.
-/

namespace WolfNas

open Text

/-- An item that was downloaded; without a subscription, its number is zero. -/
structure DownloadedItem where
  media : MediaInfo
  rssid : ℕ
  siblings : List ℕ := []
  overEdition : Bool := false
  resOrder : ℤ := 0
  filterRule : Text := []
  deriving DecidableEq, Repr

/-- A subscription of a round: its number, the key of its series and its season. -/
structure RoundSubscription where
  rssid : ℕ
  pos : rssid ≠ 0
  key : IdValue
  season : ℤ

/-! ## Items that tell their season -/

/-- `全\s*\d+\s*[集话話]`. -/
def allEpisodesAt : Text → Bool
  | '全' :: s =>
    let number := s.dropWhile isSpace
    digits number ≠ [] &&
      ((number.dropWhile Char.isDigit).dropWhile isSpace).head?.any (· ∈ ['集', '话', '話'])
  | _ => false

/-- The words for a whole season, at a place of the text. -/
def wholeSeasonAt (prev : Option Char) (s : Text) : Bool :=
  s.lower.startsWith (of "complete") || s.startsWith (of "全集") || s.startsWith (of "合集") ||
    (wordStarts prev && s.lower.startsWith (of "fin") && wordEnds (s.drop 3)) || allEpisodesAt s

/-- `whole_season_hint`; `prev` is the character in front of the text. -/
def wholeSeasonHint (prev : Option Char) : Text → Bool
  | [] => false
  | c :: s => wholeSeasonAt prev (c :: s) || wholeSeasonHint (some c) s

namespace DownloadedItem

variable (i : DownloadedItem)

/-- `raw_name`. -/
def rawName : Text := orEmpty i.media.orgString ++ ' ' :: orEmpty i.media.revString

/-- `known_season_episode`. -/
def knownSeasonEpisode : Bool :=
  i.media.getEpisodeList ≠ [] || i.media.beginSeason.isSome || i.media.totalEpisodes ≠ 0 ||
    wholeSeasonHint none i.rawName

end DownloadedItem

/-! ## The loop over the items -/

namespace WriteBack

/-- What is done with an item. -/
inductive Course
  | pass
  | overEdition
  | film
  | whole
  | part (seasoninfo : List NeedEntry)
  deriving DecidableEq, Repr

/-- The seasons of a series that are needed. -/
def seasonsOf (left : Needs) (k : IdValue) : List NeedEntry := (left.get k).getD []

section

variable (firstOrder : Text → ℤ) (left : Needs)

/-- The branch of an item.  A series with needed seasons is updated whether the item tells its
season or not. -/
def course (i : DownloadedItem) : Course :=
  if i.rssid = 0 then .pass
  else if i.overEdition then .overEdition
  else if i.media.type = some .movie then .film
  else if seasonsOf left (mediaKey i.media) ≠ [] then .part (seasonsOf left (mediaKey i.media))
  else if i.knownSeasonEpisode then .whole
  else .pass

/-- What the loop has taken: `pending_rss_torrents`, `updated_rss_torrents`, and the rows of the
TV table that are left. -/
structure Taken where
  pending : List ℕ := []
  updated : List ℕ := []
  rows : List SubscribeRow

namespace Taken

variable (taken : Taken) (i : DownloadedItem)

/-- The subscriptions whose lists an item writes: its own, and the siblings that are found. -/
def reached : List ℕ :=
  i.rssid :: (findTvSiblings taken.rows i.rssid i.media).map SubscribeRow.id

/-- `update_subscribe_over_edition` for a series: it is finished, or searched for again. -/
def editionWrites : List TvWrite :=
  if i.resOrder = 0 ∨ i.filterRule = [] then []
  else if firstOrder i.filterRule ≤ i.resOrder then
    match taken.rows.find? fun row => row.id = i.rssid with
    | none => []
    | some primary => SiblingOp.finish.writes taken.rows primary
  else [.state i.rssid .running]

/-- The writes to the TV table for an item. -/
def writes : List TvWrite :=
  match course left i with
  | .pass | .film => []
  | .overEdition =>
    if i.rssid ∈ taken.updated ∨ i.media.getEpisodeList ≠ [] ∨ i.media.type = some .movie then []
    else taken.editionWrites firstOrder i
  | .whole =>
    if i.rssid ∈ taken.pending then []
    else
      (taken.reached i).flatMap (fun rssid => if rssid = 0 then [] else [.lack rssid []]) ++
        .state i.rssid .completed ::
          (i.siblings.filter fun sibling => sibling ∉ i.rssid :: taken.pending).eraseDups.map
            (.state · .completed)
  | .part seasoninfo =>
    if i.rssid ∈ taken.updated then []
    else (taken.reached i).flatMap fun rssid => applyTvLack rssid i.media seasoninfo

/-- What is taken after an item. -/
def next : Taken :=
  match course left i with
  | .pass => taken
  | .film => { taken with pending := i.rssid :: taken.pending }
  | .overEdition =>
    if i.rssid ∈ taken.updated ∨ i.media.getEpisodeList ≠ [] then taken
    else
      { taken with
        updated := i.rssid :: taken.updated
        rows := taken.rows.filter fun row =>
          TvWrite.delete row.id ∉ taken.writes firstOrder left i }
  | .whole =>
    if i.rssid ∈ taken.pending then taken
    else { taken with pending := i.siblings ++ i.rssid :: taken.pending }
  | .part _ =>
    if i.rssid ∈ taken.updated then taken
    else { taken with updated := i.rssid :: taken.updated }

end Taken

/-- The turns of the loop: each item with what is taken before it. -/
def turns : Taken → List DownloadedItem → List (Taken × DownloadedItem)
  | _, [] => []
  | taken, i :: items => (taken, i) :: turns (taken.next firstOrder left i) items

/-- The writes of the loop. -/
def writes (rows : List SubscribeRow) (items : List DownloadedItem) : List TvWrite :=
  (turns firstOrder left { rows := rows } items).flatMap fun t => t.1.writes firstOrder left t.2

/-- The table after the loop. -/
def written (rows : List SubscribeRow) (items : List DownloadedItem)
    (table : ℕ → TvWrite.Stored) : ℕ → TvWrite.Stored :=
  TvWrite.applyAll (writes firstOrder left rows items) table

/-! ## What is claimed -/

/-- The entry of a subscription among needed seasons. -/
def entryOf (needs : Needs) (sub : RoundSubscription) : Option NeedEntry :=
  (seasonsOf needs sub.key).find? fun e => e.season = sub.season

/-- What is left of the entry of a subscription. -/
def remainder (sub : RoundSubscription) : List ℕ :=
  ((entryOf left sub).map NeedEntry.episodes).getD []

/-- The entry of a subscription was consumed, wholly or in part. -/
def Consumed (needs : Needs) (sub : RoundSubscription) : Prop :=
  ∃ e, entryOf needs sub = some e ∧ ∀ e', entryOf left sub = some e' → e'.episodes ≠ e.episodes

/-- The record of a stored subscription, if it is there, is a list. -/
def Holds (episodes : List ℕ) (stored : TvWrite.Stored) : Prop :=
  ∀ s, stored = some s → s.1.episodes = some (asEpisodes episodes)

/-- The list of a subscription whose entry was consumed is what is left of the entry: nothing
where it was consumed wholly. -/
def Right (rows : List SubscribeRow) (items : List DownloadedItem) (table : ℕ → TvWrite.Stored)
    (needs : Needs) (sub : RoundSubscription) : Prop :=
  Consumed left needs sub →
    Holds (remainder left sub) (written firstOrder left rows items table sub.rssid)

/-! ## The condition -/

/-- The item clears the list of a subscription: no season of its series is needed any more. -/
def Clears (rssid : ℕ) (t : Taken × DownloadedItem) : Prop :=
  course left t.2 = .whole ∧ t.2.rssid ∉ t.1.pending ∧ rssid ∈ t.1.reached t.2

/-- The entry of the item's own season, among the seasons of its series that are needed. -/
def ownEntry (i : DownloadedItem) : Option NeedEntry :=
  (seasonsOf left (mediaKey i.media)).find? fun e =>
    seasonMatches (ofInt e.season) i.media.getSeasonSeq

/-- The item stores episodes as the list of a subscription: those of its own season. -/
def Stores (rssid : ℕ) (episodes : List ℕ) (t : Taken × DownloadedItem) : Prop :=
  (∃ seasoninfo, course left t.2 = .part seasoninfo) ∧ t.2.rssid ∉ t.1.updated ∧
    rssid ∈ t.1.reached t.2 ∧ episodes ≠ [] ∧
      (ownEntry left t.2).map NeedEntry.episodes = some episodes

/-- The item says that a subscription lacks certain episodes. -/
def Says (rssid : ℕ) (episodes : List ℕ) (t : Taken × DownloadedItem) : Prop :=
  (episodes = [] ∧ Clears left rssid t) ∨ Stores left rssid episodes t

/-- The last turn that says what a subscription lacks says that it lacks certain episodes. -/
def LastSays (rssid : ℕ) (episodes : List ℕ) (ts : List (Taken × DownloadedItem)) : Prop :=
  ∃ earlier t later, ts = earlier ++ t :: later ∧ Says left rssid episodes t ∧
    ∀ t' ∈ later, ∀ episodes', ¬Says left rssid episodes' t'

/-- The condition on a subscription.  It is gone, or it is finished with a better edition; or the
last item that says what it lacks says what is left of its entry; or no item says anything, and the
list is right as it is. -/
def Settled (rows : List SubscribeRow) (items : List DownloadedItem)
    (table : ℕ → TvWrite.Stored) (sub : RoundSubscription) : Prop :=
  let ts := turns firstOrder left { rows := rows } items
  table sub.rssid = none ∨ (∃ t ∈ ts, .delete sub.rssid ∈ t.1.writes firstOrder left t.2) ∨
    LastSays left sub.rssid (remainder left sub) ts ∨
    ((∀ t ∈ ts, ∀ episodes, ¬Says left sub.rssid episodes t) ∧
      Holds (remainder left sub) (table sub.rssid))

end

/-! ## The record of a subscription after a run of writes -/

/-- The list that a write stores. -/
def storedList : TvWrite → Option (List ℕ)
  | .lack _ episodes => some episodes
  | .completed _ | .delete _ | .state _ _ => none

/-- A write to a subscription that is not deleted. -/
def actOn : TvWrite → Progress × SubscribeState → Progress × SubscribeState
  | .lack _ episodes, s => (s.1.updateLack (asEpisodes episodes), s.2)
  | .state _ st, s => (s.1, st)
  | .completed _, s | .delete _, s => s

theorem foldl_act {ws : List TvWrite} (hws : ∀ w ∈ ws, ∀ rssid, w ≠ .delete rssid)
    (s : Progress × SubscribeState) :
    ws.foldl (fun x w => TvWrite.act x w) (some s) = some (ws.foldl (fun x w => actOn w x) s) := by
  induction ws generalizing s with
  | nil => rfl
  | cons w ws ih =>
    have hstep : TvWrite.act (some s) w = some (actOn w s) := by
      cases w with
      | delete rssid => exact absurd rfl (hws _ List.mem_cons_self rssid)
      | completed rssid => rfl
      | state rssid st => rfl
      | lack rssid episodes => rfl
    rw [List.foldl_cons, List.foldl_cons, hstep]
    exact ih (fun w' hw' => hws w' (List.mem_cons_of_mem w hw')) _

/-- A subscription that is deleted stays deleted. -/
theorem foldl_act_none (ws : List TvWrite) :
    ws.foldl (fun x w => TvWrite.act x w) none = none := by
  induction ws with
  | nil => rfl
  | cons w ws ih => cases w <;> exact ih

theorem applyAll_of_delete {ws : List TvWrite} {rssid : ℕ} (h : TvWrite.delete rssid ∈ ws)
    (table : ℕ → TvWrite.Stored) : TvWrite.applyAll ws table rssid = none := by
  have hmem : TvWrite.delete rssid ∈ ws.filter fun w => w.rssid = rssid :=
    List.mem_filter.mpr ⟨h, by simp [TvWrite.rssid]⟩
  rw [TvWrite.applyAll, Keyed.foldl_apply]
  obtain ⟨earlier, later, hws⟩ := List.append_of_mem hmem
  rw [hws, List.foldl_append, List.foldl_cons]
  exact foldl_act_none later

/-- The lists that are stored for a subscription, in turn. -/
def storedFor (rssid : ℕ) (ws : List TvWrite) : List (List ℕ) :=
  (ws.filter fun w => w.rssid = rssid).filterMap storedList

/-- The record of a subscription that is not deleted is the last list that is stored for it, or
else the one that it had. -/
theorem record_applyAll {ws : List TvWrite} {rssid : ℕ} {table : ℕ → TvWrite.Stored}
    {s : Progress × SubscribeState} (hs : table rssid = some s)
    (hws : TvWrite.delete rssid ∉ ws) :
    ∃ s', TvWrite.applyAll ws table rssid = some s' ∧
      s'.1.episodes = ((storedFor rssid ws).getLast?.map asEpisodes).or s.1.episodes := by
  have hkept : ∀ w ∈ ws.filter (fun w => w.rssid = rssid), ∀ rssid', w ≠ .delete rssid' := by
    intro w hw rssid' h
    subst h
    obtain ⟨hmem, hid⟩ := List.mem_filter.mp hw
    have hid : rssid' = rssid := of_decide_eq_true hid
    exact hws (hid ▸ hmem)
  rw [TvWrite.applyAll, Keyed.foldl_apply, hs, foldl_act hkept]
  refine ⟨_, rfl, ?_⟩
  have hread := Keyed.read_foldl actOn (fun s => s.1.episodes) storedList
    (fun episodes => some (asEpisodes episodes)) (fun w s => by cases w <;> rfl)
    (ws.filter fun w => w.rssid = rssid) s
  rw [hread, storedFor]
  cases ((ws.filter fun w => w.rssid = rssid).filterMap storedList).getLast? <;> rfl

/-- The lists that a run of turns stores for a subscription. -/
theorem getLast?_storedFor_flatMap {γ : Type} (rssid : ℕ) (f : γ → List TvWrite) (l : List γ) :
    (storedFor rssid (l.flatMap f)).getLast? =
      (l.filterMap fun a => (storedFor rssid (f a)).getLast?).getLast? := by
  simp only [storedFor, List.filterMap_filter]
  exact Keyed.getLast?_filterMap_flatMap f _ l

/-! ## What a turn says -/

theorem storedFor_append (rssid : ℕ) (ws ws' : List TvWrite) :
    storedFor rssid (ws ++ ws') = storedFor rssid ws ++ storedFor rssid ws' := by
  simp [storedFor]

/-- Writes that store no list. -/
theorem storedFor_eq_nil {rssid : ℕ} {ws : List TvWrite} (h : ∀ w ∈ ws, storedList w = none) :
    storedFor rssid ws = [] := by
  refine List.filterMap_eq_nil_iff.mpr ?_
  intro w hw
  exact h w (List.mem_filter.mp hw).1

/-- One list for each of several subscriptions, which may be named more than once. -/
theorem getLast?_storedFor_reached {rssid : ℕ} {f : ℕ → List TvWrite} {said : Option (List ℕ)}
    (hf : ∀ id, storedFor rssid (f id) = if id = rssid then said.toList else []) (ids : List ℕ) :
    (storedFor rssid (ids.flatMap f)).getLast? = if rssid ∈ ids then said else none := by
  induction ids with
  | nil => rfl
  | cons id ids ih =>
    rw [List.flatMap_cons, storedFor_append, List.getLast?_append, ih, hf]
    by_cases hid : id = rssid
    · subst hid
      by_cases hmem : id ∈ ids
      · cases said <;> simp [hmem]
      · cases said <;> simp [hmem]
    · simp [hid, Ne.symm hid]

theorem storedFor_clear {rssid : ℕ} (hrssid : rssid ≠ 0) (id : ℕ) :
    storedFor rssid (if id = 0 then [] else [.lack id []]) =
      if id = rssid then (some ([] : List ℕ)).toList else [] := by
  by_cases hid : id = rssid
  · subst hid
    simp [hrssid, storedFor, storedList, TvWrite.rssid]
  · by_cases hzero : id = 0
    · simp [hzero, storedFor, Ne.symm hrssid]
    · simp [hzero, storedFor, TvWrite.rssid, hid]

theorem storedFor_applyTvLack {rssid : ℕ} (hrssid : rssid ≠ 0) (m : MediaInfo)
    (seasoninfo : List NeedEntry) (id : ℕ) :
    storedFor rssid (applyTvLack id m seasoninfo) =
      if id = rssid then
        (((seasoninfo.find? fun e => seasonMatches (ofInt e.season) m.getSeasonSeq).map
          NeedEntry.episodes).filter (· ≠ [])).toList
      else [] := by
  by_cases hid : id = rssid
  · subst hid
    rw [applyTvLack, if_neg hrssid, if_pos rfl]
    cases seasoninfo.find? fun e => seasonMatches (ofInt e.season) m.getSeasonSeq with
    | none => simp [storedFor, storedList, TvWrite.rssid]
    | some e =>
      by_cases hepisodes : e.episodes = []
      · simp [hepisodes, storedFor, storedList, TvWrite.rssid, List.filterMap_cons, Option.filter]
      · simp [hepisodes, storedFor, storedList, TvWrite.rssid, List.filterMap_cons, Option.filter]
  · rw [if_neg hid, applyTvLack]
    by_cases hzero : id = 0
    · simp [hzero, storedFor]
    · rw [if_neg hzero]
      cases seasoninfo.find? fun e => seasonMatches (ofInt e.season) m.getSeasonSeq with
      | none => simp [storedFor, TvWrite.rssid, hid]
      | some e =>
        by_cases hepisodes : e.episodes = []
        · simp [hepisodes, storedFor, TvWrite.rssid, hid]
        · simp [hepisodes, storedFor, TvWrite.rssid, hid]

/-- An item that is updated is updated with the seasons of its series. -/
theorem seasonsOf_of_course {left : Needs} {i : DownloadedItem} {seasoninfo : List NeedEntry}
    (h : course left i = .part seasoninfo) : seasoninfo = seasonsOf left (mediaKey i.media) := by
  unfold course at h
  split_ifs at h
  cases h
  rfl

theorem storedList_editionWrites {firstOrder : Text → ℤ} {taken : Taken} {i : DownloadedItem}
    {w : TvWrite} (hw : w ∈ taken.editionWrites firstOrder i) : storedList w = none := by
  unfold Taken.editionWrites at hw
  split_ifs at hw with hnone horder
  · simp at hw
  · split at hw
    · simp at hw
    · next primary _ =>
      obtain ⟨row, _, hw⟩ := List.mem_flatMap.mp hw
      rcases List.mem_append.mp hw with hw | hw
      · unfold recordCompleted at hw
        split_ifs at hw
        · simp at hw
        · rw [List.mem_singleton.mp hw]
          rfl
      · rw [List.mem_singleton.mp hw]
        rfl
  · rw [List.mem_singleton.mp hw]
    rfl

/-- The list that a turn stores for a subscription is what it says. -/
theorem getLast?_storedFor_writes {firstOrder : Text → ℤ} {left : Needs} {rssid : ℕ}
    (hrssid : rssid ≠ 0) {episodes : List ℕ} (t : Taken × DownloadedItem) :
    (storedFor rssid (t.1.writes firstOrder left t.2)).getLast? = some episodes ↔
      Says left rssid episodes t := by
  obtain ⟨taken, i⟩ := t
  unfold Says Clears Stores Taken.writes
  cases hcourse : course left i with
  | pass => simp [storedFor]
  | film => simp [storedFor]
  | overEdition =>
    have hnone : storedFor rssid (if i.rssid ∈ taken.updated ∨ i.media.getEpisodeList ≠ [] ∨
        i.media.type = some .movie then [] else taken.editionWrites firstOrder i) = [] := by
      refine storedFor_eq_nil ?_
      intro w hw
      split_ifs at hw
      · simp at hw
      · exact storedList_editionWrites hw
    simp [hnone]
  | whole =>
    by_cases hpending : i.rssid ∈ taken.pending
    · simp [hpending, storedFor]
    · have hstates : storedFor rssid (.state i.rssid .completed ::
          (i.siblings.filter fun sibling => sibling ∉ i.rssid :: taken.pending).eraseDups.map
            (.state · .completed)) = [] := by
        refine storedFor_eq_nil ?_
        intro w hw
        rcases List.mem_cons.mp hw with rfl | hw
        · rfl
        · obtain ⟨sibling, _, rfl⟩ := List.mem_map.mp hw
          rfl
      simp only [if_neg hpending, storedFor_append, hstates, List.append_nil,
        getLast?_storedFor_reached (storedFor_clear hrssid)]
      simp [hpending, eq_comm, and_comm]
  | part seasoninfo =>
    by_cases hupdated : i.rssid ∈ taken.updated
    · simp [hupdated, storedFor]
    · simp only [if_neg hupdated,
        getLast?_storedFor_reached (storedFor_applyTvLack hrssid i.media seasoninfo)]
      rw [seasonsOf_of_course hcourse, ← ownEntry]
      by_cases hreached : rssid ∈ taken.reached i
      · simp [hreached, hupdated, Option.filter_eq_some_iff, and_comm]
      · simp [hreached]

/-- A turn that stores no list says nothing. -/
theorem getLast?_storedFor_writes_eq_none (firstOrder : Text → ℤ) {left : Needs} {rssid : ℕ}
    (hrssid : rssid ≠ 0) (t : Taken × DownloadedItem) :
    (storedFor rssid (t.1.writes firstOrder left t.2)).getLast? = none ↔
      ∀ episodes, ¬Says left rssid episodes t := by
  rw [Option.eq_none_iff_forall_ne_some]
  exact forall_congr' fun episodes => not_congr (getLast?_storedFor_writes hrssid t)

/-- What the last item says that says anything is the last list that the loop stores. -/
theorem lastSays_iff (firstOrder : Text → ℤ) {left : Needs} {rssid : ℕ} (hrssid : rssid ≠ 0)
    {episodes : List ℕ} (ts : List (Taken × DownloadedItem)) :
    LastSays left rssid episodes ts ↔
      (storedFor rssid (ts.flatMap fun t => t.1.writes firstOrder left t.2)).getLast? =
        some episodes := by
  rw [getLast?_storedFor_flatMap, List.getLast?_filterMap, List.findSome?_eq_some_iff]
  constructor
  · intro ⟨earlier, t, later, hts, hsays, hlater⟩
    refine ⟨later.reverse, t, earlier.reverse, by simp [hts], ?_, ?_⟩
    · exact (getLast?_storedFor_writes hrssid t).mpr hsays
    · intro t' ht'
      exact (getLast?_storedFor_writes_eq_none firstOrder hrssid t').mpr
        (hlater t' (List.mem_reverse.mp ht'))
  · intro ⟨later, t, earlier, hts, hsays, hlater⟩
    refine ⟨earlier.reverse, t, later.reverse, ?_, ?_, ?_⟩
    · rw [← List.reverse_reverse ts, hts]
      simp
    · exact (getLast?_storedFor_writes hrssid t).mp hsays
    · intro t' ht'
      exact (getLast?_storedFor_writes_eq_none firstOrder hrssid t').mp
        (hlater t' (List.mem_reverse.mp ht'))

/-- No item says anything of a subscription where the loop stores no list for it. -/
theorem forall_not_says_iff (firstOrder : Text → ℤ) {left : Needs} {rssid : ℕ}
    (hrssid : rssid ≠ 0) (ts : List (Taken × DownloadedItem)) :
    (∀ t ∈ ts, ∀ episodes, ¬Says left rssid episodes t) ↔
      (storedFor rssid (ts.flatMap fun t => t.1.writes firstOrder left t.2)).getLast? = none := by
  rw [getLast?_storedFor_flatMap, List.getLast?_eq_none_iff, List.filterMap_eq_nil_iff]
  exact forall₂_congr fun t _ => (getLast?_storedFor_writes_eq_none firstOrder hrssid t).symm

theorem asEpisodes_inj {episodes episodes' : List ℕ} :
    asEpisodes episodes = asEpisodes episodes' ↔ episodes = episodes' :=
  (List.map_injective_iff.mpr fun _ _ h => Int.natCast_inj.mp h).eq_iff

/-- The record of a subscription that is there, and is not finished, after the loop. -/
theorem holds_written_iff {firstOrder : Text → ℤ} {left : Needs} {rows : List SubscribeRow}
    {items : List DownloadedItem} {table : ℕ → TvWrite.Stored} {rssid : ℕ} (hrssid : rssid ≠ 0)
    {s : Progress × SubscribeState} (hs : table rssid = some s)
    (hkept : .delete rssid ∉ writes firstOrder left rows items) (episodes : List ℕ) :
    Holds episodes (written firstOrder left rows items table rssid) ↔
      LastSays left rssid episodes (turns firstOrder left { rows := rows } items) ∨
        ((∀ t ∈ turns firstOrder left { rows := rows } items,
            ∀ episodes', ¬Says left rssid episodes' t) ∧
          Holds episodes (table rssid)) := by
  obtain ⟨s', hs', hrecord⟩ := record_applyAll hs hkept
  rw [written, hs', lastSays_iff firstOrder hrssid,
    forall_not_says_iff firstOrder hrssid, hs]
  simp only [Holds, Option.some.injEq, forall_eq']
  rw [hrecord, writes]
  cases (storedFor rssid (List.flatMap _ (turns firstOrder left { rows := rows } items))).getLast?
    with
  | none => simp
  | some last => simp [asEpisodes_inj]

/-- **The lists of a round's subscriptions**: for all needed seasons and all downloaded items, every
subscription whose entry was consumed has the rest of it as its list exactly where it is
settled. -/
theorem right_iff (firstOrder : Text → ℤ) (needs left : Needs) (rows : List SubscribeRow)
    (items : List DownloadedItem) (table : ℕ → TvWrite.Stored) (subs : List RoundSubscription) :
    (∀ sub ∈ subs, Right firstOrder left rows items table needs sub) ↔
      ∀ sub ∈ subs, Consumed left needs sub → Settled firstOrder left rows items table sub := by
  refine forall₂_congr fun sub _ => ?_
  unfold Right Settled
  refine imp_congr_right fun _ => ?_
  have hdeleted : (∃ t ∈ turns firstOrder left { rows := rows } items,
      .delete sub.rssid ∈ t.1.writes firstOrder left t.2) ↔
        .delete sub.rssid ∈ writes firstOrder left rows items := by
    rw [writes, List.mem_flatMap]
  simp only [hdeleted]
  by_cases hdelete : .delete sub.rssid ∈ writes firstOrder left rows items
  · have hgone := applyAll_of_delete hdelete table
    simp [written, hgone, hdelete, Holds]
  · cases hs : table sub.rssid with
    | none =>
      have hgone : written firstOrder left rows items table sub.rssid = none := by
        rw [written, TvWrite.applyAll, Keyed.foldl_apply, hs]
        exact foldl_act_none _
      simp [hgone, Holds]
    | some s =>
      rw [holds_written_iff sub.pos hs hdelete, hs]
      simp [hdelete]

/-- The key of a series. -/
def seriesSeven : IdValue := .text (of "tmdb:7")

/-- Both seasons of a series are needed: one episode of the first, two of the second. -/
def bothNeeded : Needs := Dict.empty.set seriesSeven [⟨1, [1], 1, 0⟩, ⟨2, [1, 2], 2, 0⟩]

/-- An episode of the second season is still needed. -/
def secondLeft : Needs := Dict.empty.set seriesSeven [⟨2, [2], 2, 0⟩]

/-- The first episode of a season. -/
def firstEpisodeOf (season : ℕ) : DownloadedItem where
  media := {
    type := some .tv, tmdbId := .int 7, beginSeason := some season, beginEpisode := some 1 }
  rssid := season

/-- The lists of the two subscriptions. -/
def bothListed (rssid : ℕ) : TvWrite.Stored :=
  some ({ episodes := some (if rssid = 1 then [1] else [1, 2]) }, .running)

/-- The subscription to the first season. -/
def firstSubscription : RoundSubscription where
  rssid := 1
  pos := by decide
  key := seriesSeven
  season := 1

/-- A season that has all its episodes keeps them as lacking as long as another season of the
series is needed. -/
theorem completed_season_kept :
    ¬Right (fun _ => 0) secondLeft [] [firstEpisodeOf 1, firstEpisodeOf 2] bothListed bothNeeded
      firstSubscription := by
  intro h
  have hconsumed : Consumed secondLeft bothNeeded firstSubscription := by
    refine ⟨⟨1, [1], 1, 0⟩, by decide +kernel, ?_⟩
    intro e he
    have hnone : entryOf secondLeft firstSubscription = none := by decide +kernel
    rw [hnone] at he
    cases he
  have hkept : (written (fun _ => 0) secondLeft [] [firstEpisodeOf 1, firstEpisodeOf 2] bothListed
      1).map (fun s => s.1.episodes) = some (some [1]) := by decide +kernel
  obtain ⟨s, hs, hepisodes⟩ := Option.map_eq_some_iff.mp hkept
  have hcleared := h hconsumed s hs
  rw [hepisodes] at hcleared
  revert hcleared
  decide +kernel

end WriteBack

end WolfNas
