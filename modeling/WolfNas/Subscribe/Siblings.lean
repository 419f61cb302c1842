import WolfNas.Lib.Keyed
import WolfNas.Media.EpisodeText
import WolfNas.Subscribe.Rows
import WolfNas.Subscribe.RssFeed
import WolfNas.Subscribe.TvTable

/-!
# The siblings of a TV subscription

Several users may subscribe to one season of a show.  When the subscription of one of them is
completed, or its lacking episodes change, the code looks for the subscriptions of the others
and writes them as well.  Two searches for siblings are in use, and each goes by its own idea of
what makes two rows one show.

## Main definitions

* `TvRows` — the rows of the table.
* `rowRef`, `finishSiblings` — the search when a subscription is completed.
* `findTvSiblings` — the search when its lacking episodes change.
* `TvWrite`, `SiblingOp`, `SiblingOp.writes` — the writes of an operation.
* `Sibling` — what a sibling is to be.
* `SiblingOp.Fits` — the condition on the rows the searches take.

## Main results

* `siblings_written_iff` — which subscriptions an operation changes.
-/

namespace WolfNas

open Text

/-- The table of TV subscriptions, by primary key. -/
structure TvRows where
  rows : List SubscribeRow
  nodup : (rows.map SubscribeRow.id).Nodup
  pos : ∀ row ∈ rows, row.id ≠ 0

/-! ## The writes -/

/-- A write to one subscription. -/
inductive TvWrite
  /-- The completion is recorded as an event of the work. -/
  | completed (rssid : ℕ)
  /-- `delete_rss_tv`. -/
  | delete (rssid : ℕ)
  /-- `update_rss_tv_state`. -/
  | state (rssid : ℕ) (state : SubscribeState)
  /-- `update_rss_tv_lack`. -/
  | lack (rssid : ℕ) (episodes : List ℕ)
  deriving DecidableEq, Repr

namespace TvWrite

/-- The subscription that is written. -/
def rssid : TvWrite → ℕ
  | completed rssid | delete rssid | state rssid _ | lack rssid _ => rssid

/-- What the table keeps of a subscription besides the columns that the searches read; none
where there is no such subscription. -/
abbrev Stored := Option (Progress × SubscribeState)

/-- A write on the subscription it names. -/
def act (stored : Stored) : TvWrite → Stored
  | completed _ => stored
  | delete _ => none
  | state _ st => stored.map fun s => (s.1, st)
  | lack _ episodes => stored.map fun s => (s.1.updateLack (asEpisodes episodes), s.2)

/-- A run of writes on the table. -/
def applyAll (ws : List TvWrite) (table : ℕ → Stored) : ℕ → Stored :=
  ws.foldl (Keyed.apply rssid fun w s => act s w) table

end TvWrite

/-! ## The searches -/

/-- `_row_ref`. -/
def rowRef (row : SubscribeRow) : Text :=
  let provider := (orEmpty row.anchorProvider).strip.lower
  let external := (orEmpty row.anchorExternalId).strip
  if (orEmpty row.metadataRef).strip ≠ [] then (orEmpty row.metadataRef).strip
  else if (orEmpty row.identityId).strip ≠ [] then of "id:" ++ (orEmpty row.identityId).strip
  else if provider ≠ [] ∧ external ≠ [] then provider.joinColon external
  else if (orEmpty row.tmdbId).strip.isDigit then of "tmdb:" ++ (orEmpty row.tmdbId).strip
  else []

/-- `tv_filter_signature`. -/
def tvFilterSignature (row : SubscribeRow) : FilterArgs := row.filters

/-- The rows that `_finish_sibling_tvs` takes. -/
def finishSiblings (rows : List SubscribeRow) (primary : SubscribeRow) : List SubscribeRow :=
  rows.filter fun row =>
    row.id ≠ 0 ∧ row.id ≠ primary.id ∧ rowRef row = rowRef primary ∧
      (primary.season = [] ∨ row.season = primary.season) ∧ ¬row.overEdition ∧
      tvFilterSignature row = tvFilterSignature primary

/-- `_find_tv_siblings`. -/
def findTvSiblings (rows : List SubscribeRow) (rssid : ℕ) (m : MediaInfo) : List SubscribeRow :=
  let primary := rows.find? fun row => row.id = rssid
  rows.filter fun row =>
    row.id ≠ rssid ∧ orEmpty row.tmdbId = m.tmdbId.toText ∧
      (m.getSeasonString = [] ∨ row.season = m.getSeasonString) ∧ ¬row.overEdition ∧
      (primary.all fun p => tvFilterSignature row = tvFilterSignature p)

/-! ## The operations -/

/-- `_record_subscription_completed`. -/
def recordCompleted (row : SubscribeRow) : List TvWrite :=
  if orEmpty row.identityId = [] then [] else [.completed row.id]

/-- `_apply_tv_lack`. -/
def applyTvLack (rssid : ℕ) (m : MediaInfo) (seasoninfo : List NeedEntry) : List TvWrite :=
  if rssid = 0 then []
  else .state rssid .running ::
    match seasoninfo.find? fun info => seasonMatches (ofInt info.season) m.getSeasonSeq with
    | some info => if info.episodes = [] then [] else [.lack rssid info.episodes]
    | none => []

/-- An operation on a subscription that is carried over to its siblings. -/
inductive SiblingOp
  /-- `finish_rss_subscribe` and `finalize_tv_by_rssid`. -/
  | finish
  /-- `clear_subscribe_tv_lack`. -/
  | clearLack (m : Option MediaInfo)
  /-- `update_subscribe_tv_lack`. -/
  | updateLack (m : MediaInfo) (seasoninfo : List NeedEntry)

namespace SiblingOp

/-- The siblings that an operation finds. -/
def found (rows : List SubscribeRow) (primary : SubscribeRow) : SiblingOp → List SubscribeRow
  | finish => finishSiblings rows primary
  | clearLack none => []
  | clearLack (some m) | updateLack m _ => findTvSiblings rows primary.id m

/-- What an operation writes to the subscription itself and to each sibling. -/
def writesTo (row : SubscribeRow) : SiblingOp → List TvWrite
  | finish => recordCompleted row ++ [.delete row.id]
  | clearLack _ => if row.id = 0 then [] else [.lack row.id []]
  | updateLack m seasoninfo => applyTvLack row.id m seasoninfo

/-- The writes of an operation. -/
def writes (rows : List SubscribeRow) (primary : SubscribeRow) (op : SiblingOp) : List TvWrite :=
  (primary :: op.found rows primary).flatMap op.writesTo

/-- The item that the operation is about, where it is given one. -/
def media : SiblingOp → Option MediaInfo
  | finish => none
  | clearLack m => m
  | updateLack m _ => some m

end SiblingOp

/-! ## Siblings -/

/-- The references to its work that a row carries. -/
def references (row : SubscribeRow) : List Text :=
  let provider := (orEmpty row.anchorProvider).strip.lower
  let external := (orEmpty row.anchorExternalId).strip
  (if (orEmpty row.metadataRef).strip = [] then [] else [(orEmpty row.metadataRef).strip]) ++
    (if (orEmpty row.identityId).strip = [] then []
      else [of "id:" ++ (orEmpty row.identityId).strip]) ++
    (if provider = [] ∨ external = [] then [] else [provider.joinColon external]) ++
    (if (orEmpty row.tmdbId).strip = [] then [] else [of "tmdb:" ++ (orEmpty row.tmdbId).strip])

/-- The reference of an item. -/
def mediaReferences (m : MediaInfo) : List Text :=
  if m.tmdbId.toText.strip = [] then [] else [of "tmdb:" ++ m.tmdbId.toText.strip]

/-- The row refers to the work of the subscription, or of the item at hand. -/
def SameWork (primary : SubscribeRow) (m : Option MediaInfo) (row : SubscribeRow) : Prop :=
  ∃ ref ∈ references row, ref ∈ references primary ++ (m.map mediaReferences).getD []

instance (primary : SubscribeRow) (m : Option MediaInfo) (row : SubscribeRow) :
    Decidable (SameWork primary m row) :=
  inferInstanceAs (Decidable (∃ ref ∈ references row,
    ref ∈ references primary ++ (m.map mediaReferences).getD []))

/-- What a sibling is to be: a subscription to the same season of the same work, with the same
wishes, and not one that goes on for better editions. -/
structure Sibling (primary : SubscribeRow) (m : Option MediaInfo) (row : SubscribeRow) :
    Prop where
  work : SameWork primary m row
  season : normalizeTvSeason row.season = normalizeTvSeason primary.season
  filters : tvFilterSignature row = tvFilterSignature primary
  plain : row.overEdition = false

/-- The operation changes or deletes another subscription only where that is a sibling. -/
def WritesSiblings (t : TvRows) (primary : SubscribeRow) (op : SiblingOp) : Prop :=
  ∀ table, ∀ row ∈ t.rows, row.id ≠ primary.id →
    TvWrite.applyAll (op.writes t.rows primary) table row.id ≠ table row.id →
      Sibling primary op.media row

/-! ## The condition -/

/-- The condition on another row with the wishes of the subscription.  Where both rows are
without a reference, they have one text in the column of the TMDB number; where no TMDB number
is known, the row shares another reference; and the seasons that were not compared agree. -/
def SiblingOp.FitsRow (primary row : SubscribeRow) : SiblingOp → Prop
  | finish => rowRef row = rowRef primary →
      (primary.season = [] ∨ row.season = primary.season) →
        (rowRef primary = [] → (orEmpty row.tmdbId).strip ≠ [] ∧
          (orEmpty row.tmdbId).strip = (orEmpty primary.tmdbId).strip) ∧
        (primary.season = [] → row.season.strip = [])
  | clearLack none => True
  | clearLack (some m) | updateLack m _ => orEmpty row.tmdbId = m.tmdbId.toText →
      (m.getSeasonString = [] ∨ row.season = m.getSeasonString) →
        (m.tmdbId.toText.strip = [] → ∃ ref ∈ references row, ref ∈ references primary) ∧
        normalizeTvSeason row.season = normalizeTvSeason primary.season

/-- The condition on the rows of the table. -/
def SiblingOp.Fits (t : TvRows) (primary : SubscribeRow) (op : SiblingOp) : Prop :=
  ∀ row ∈ t.rows, row.id ≠ primary.id → row.overEdition = false →
    tvFilterSignature row = tvFilterSignature primary → op.FitsRow primary row

/-! ## What is written -/

namespace TvWrite

/-- A subscription that holds no record and awaits its transfer. -/
def untouched : Stored := some ({}, .completed)

/-- The subscription is deleted, searched for again, or has a record. -/
def Altered (stored : Stored) : Prop :=
  ∀ s, stored = some s → s.2 = .running ∨ s.1.episodes ≠ none

theorem not_altered_untouched : ¬Altered untouched := by
  intro h
  have := h _ rfl
  simp at this

/-- The writes of the operations, apart from the events. -/
def Alters : TvWrite → Prop
  | completed _ => False
  | delete _ => True
  | state _ st => st = .running
  | lack _ _ => True

theorem altered_act {w : TvWrite} (hw : w.Alters) (stored : Stored) : Altered (act stored w) := by
  intro s hs
  cases w with
  | completed rssid => exact hw.elim
  | delete rssid => simp [act] at hs
  | state rssid st =>
    obtain ⟨old, _, rfl⟩ := Option.map_eq_some_iff.mp hs
    exact .inl hw
  | lack rssid episodes =>
    obtain ⟨old, _, rfl⟩ := Option.map_eq_some_iff.mp hs
    exact .inr (by simp [Progress.updateLack])

/-- The events and the operations' writes keep an altered subscription altered. -/
theorem Altered.act {w : TvWrite} {stored : Stored} (h : Altered stored)
    (hw : w.Alters ∨ ∃ rssid, w = completed rssid) : Altered (act stored w) := by
  rcases hw with hw | ⟨rssid, rfl⟩
  · exact altered_act hw stored
  · exact h

theorem altered_foldl {ws : List TvWrite} {stored : Stored}
    (hws : ∀ w ∈ ws, w.Alters ∨ ∃ rssid, w = completed rssid)
    (h : Altered stored ∨ ∃ w ∈ ws, w.Alters) :
    Altered (ws.foldl (fun s w => TvWrite.act s w) stored) := by
  induction ws generalizing stored with
  | nil => simpa using h
  | cons w ws ih =>
    refine ih (fun w' hw' => hws w' (List.mem_cons_of_mem w hw')) ?_
    rcases h with h | ⟨w', hw', halters⟩
    · exact .inl (h.act (hws w List.mem_cons_self))
    · rcases List.mem_cons.mp hw' with rfl | hw'
      · exact .inl (altered_act halters stored)
      · exact .inr ⟨w', hw', halters⟩

end TvWrite

namespace SiblingOp

variable {t : TvRows} {primary row : SubscribeRow} {op : SiblingOp}

theorem rssid_of_mem_writesTo {w : TvWrite} (h : w ∈ op.writesTo row) : w.rssid = row.id := by
  cases op with
  | finish =>
    rcases List.mem_append.mp h with h | h
    · rw [recordCompleted] at h
      split_ifs at h with hid
      · simp at h
      · rw [List.mem_singleton.mp h]
        rfl
    · rw [List.mem_singleton.mp h]
      rfl
  | clearLack m =>
    simp only [writesTo] at h
    split_ifs at h with hid
    · simp at h
    · rw [List.mem_singleton.mp h]
      rfl
  | updateLack m seasoninfo =>
    simp only [writesTo, applyTvLack] at h
    split_ifs at h with hid
    · simp at h
    · rcases List.mem_cons.mp h with rfl | h
      · rfl
      · split at h
        · split_ifs at h with hepisodes
          · simp at h
          · rw [List.mem_singleton.mp h]
            rfl
        · simp at h

theorem alters_of_mem_writesTo {w : TvWrite} (h : w ∈ op.writesTo row) :
    w.Alters ∨ ∃ rssid, w = .completed rssid := by
  cases w with
  | completed rssid => exact .inr ⟨rssid, rfl⟩
  | delete rssid => exact .inl trivial
  | lack rssid episodes => exact .inl trivial
  | state rssid st =>
    refine .inl ?_
    cases op with
    | finish =>
      simp only [writesTo, recordCompleted] at h
      split_ifs at h <;> simp at h
    | clearLack m =>
      simp only [writesTo] at h
      split_ifs at h <;> simp at h
    | updateLack m seasoninfo =>
      simp only [writesTo, applyTvLack] at h
      split_ifs at h with hid
      · simp at h
      · rcases List.mem_cons.mp h with h | h
        · obtain ⟨_, rfl⟩ := TvWrite.state.inj h
          rfl
        · split at h
          · split_ifs at h <;> simp at h
          · simp at h

/-- Every operation writes something to a row of the table. -/
theorem exists_alters_writesTo (hid : row.id ≠ 0) : ∃ w ∈ op.writesTo row, w.Alters := by
  cases op with
  | finish => exact ⟨.delete row.id, by simp [writesTo], trivial⟩
  | clearLack m => exact ⟨.lack row.id [], by simp [writesTo, hid], trivial⟩
  | updateLack m seasoninfo =>
    exact ⟨.state row.id .running, by simp [writesTo, applyTvLack, hid], rfl⟩

theorem found_subset : op.found t.rows primary ⊆ t.rows := by
  intro row h
  cases op with
  | finish => exact (List.mem_filter.mp h).1
  | clearLack m =>
    cases m with
    | none => simp [found] at h
    | some m => exact (List.mem_filter.mp h).1
  | updateLack m seasoninfo => exact (List.mem_filter.mp h).1

/-- The subscriptions that an operation changes are those that it finds. -/
theorem written_iff_found (hrow : row ∈ t.rows) (hne : row.id ≠ primary.id) :
    (∃ table, TvWrite.applyAll (op.writes t.rows primary) table row.id ≠ table row.id) ↔
      row ∈ op.found t.rows primary := by
  constructor
  · rintro ⟨table, hchanged⟩
    by_contra hnot
    refine hchanged (Keyed.frame _ _ ?_ table)
    intro w hw hid
    obtain ⟨other, hother, hw⟩ := List.mem_flatMap.mp hw
    rw [rssid_of_mem_writesTo hw] at hid
    rcases List.mem_cons.mp hother with rfl | hother
    · exact hne hid.symm
    · exact hnot (List.inj_on_of_nodup_map t.nodup (found_subset hother) hrow hid ▸ hother)
  · intro hfound
    obtain ⟨w, hw, halters⟩ := @exists_alters_writesTo row op (t.pos row hrow)
    have haltered : TvWrite.Altered
        (TvWrite.applyAll (op.writes t.rows primary) (fun _ => TvWrite.untouched) row.id) := by
      rw [TvWrite.applyAll, Keyed.foldl_apply]
      refine TvWrite.altered_foldl ?_ (.inr ⟨w, ?_, halters⟩)
      · intro w' hw'
        obtain ⟨other, _, hw'⟩ := List.mem_flatMap.mp (List.mem_filter.mp hw').1
        exact alters_of_mem_writesTo hw'
      · refine List.mem_filter.mpr ⟨?_, by simp [rssid_of_mem_writesTo hw]⟩
        exact List.mem_flatMap.mpr ⟨row, List.mem_cons_of_mem _ hfound, hw⟩
    refine ⟨fun _ => TvWrite.untouched, ?_⟩
    intro hsame
    rw [hsame] at haltered
    exact TvWrite.not_altered_untouched haltered

end SiblingOp

/-! ## References -/

section References

variable {primary row : SubscribeRow}

/-- A row without a derived reference carries none, apart from a text in the column of the TMDB
number that is no number. -/
theorem references_of_rowRef_nil (h : rowRef row = []) :
    references row = if (orEmpty row.tmdbId).strip = [] then []
      else [of "tmdb:" ++ (orEmpty row.tmdbId).strip] := by
  rw [rowRef] at h
  by_cases hmetadata : (orEmpty row.metadataRef).strip = []
  · by_cases hidentity : (orEmpty row.identityId).strip = []
    · by_cases hanchor : (orEmpty row.anchorProvider).strip.lower = [] ∨
          (orEmpty row.anchorExternalId).strip = []
      · simp only [references, hmetadata, hidentity, hanchor, if_true, List.nil_append]
      · simp [hmetadata, hidentity, not_or.mp hanchor, joinColon] at h
    · simp [hmetadata, hidentity, of] at h
  · simp [hmetadata] at h

/-- A derived reference is one of those that the row carries. -/
theorem rowRef_mem_references (h : rowRef row ≠ []) : rowRef row ∈ references row := by
  rw [references]
  by_cases hmetadata : (orEmpty row.metadataRef).strip = []
  · by_cases hidentity : (orEmpty row.identityId).strip = []
    · by_cases hanchor : (orEmpty row.anchorProvider).strip.lower = [] ∨
          (orEmpty row.anchorExternalId).strip = []
      · have hnot : ¬((orEmpty row.anchorProvider).strip.lower ≠ [] ∧
            (orEmpty row.anchorExternalId).strip ≠ []) := by tauto
        have htmdb : (orEmpty row.tmdbId).strip.isDigit = true := by
          by_contra hdigit
          exact h (by simp [rowRef, hmetadata, hidentity, hnot, hdigit])
        have hne : (orEmpty row.tmdbId).strip ≠ [] := by
          intro hnil
          simp [hnil, isDigit] at htmdb
        simp [rowRef, hmetadata, hidentity, hnot, htmdb, hne]
      · simp [rowRef, hmetadata, hidentity, not_or.mp hanchor]
    · simp [rowRef, hmetadata, hidentity]
  · simp [rowRef, hmetadata]

/-- Rows with one derived reference, and the text in the column of the TMDB number where there
is none. -/
theorem sameWork_of_rowRef_eq (h : rowRef row = rowRef primary) :
    SameWork primary none row ↔ (rowRef primary = [] → (orEmpty row.tmdbId).strip ≠ [] ∧
      (orEmpty row.tmdbId).strip = (orEmpty primary.tmdbId).strip) := by
  simp only [SameWork, Option.map_none, Option.getD_none, List.append_nil]
  by_cases hnil : rowRef primary = []
  · rw [references_of_rowRef_nil (h.trans hnil), references_of_rowRef_nil hnil]
    simp only [hnil, true_imp_iff]
    by_cases hrow : (orEmpty row.tmdbId).strip = []
    · simp [hrow]
    · by_cases hprimary : (orEmpty primary.tmdbId).strip = []
      · simp [hrow, hprimary]
      · simp [hrow, hprimary]
  · simp only [hnil, false_imp_iff, iff_true]
    exact ⟨rowRef row, rowRef_mem_references (h ▸ hnil), h ▸ rowRef_mem_references hnil⟩

/-- Rows with one text in the column of the TMDB number as the item has. -/
theorem sameWork_of_tmdbId_eq {m : MediaInfo} (h : orEmpty row.tmdbId = m.tmdbId.toText) :
    SameWork primary (some m) row ↔
      (m.tmdbId.toText.strip = [] → ∃ ref ∈ references row, ref ∈ references primary) := by
  simp only [SameWork, Option.map_some, Option.getD_some, mediaReferences]
  by_cases hnil : m.tmdbId.toText.strip = []
  · simp [hnil]
  · simp only [hnil, if_false, false_imp_iff, iff_true]
    refine ⟨of "tmdb:" ++ m.tmdbId.toText.strip, ?_, by simp⟩
    simp [references, h, hnil]

/-- A season is stored as the blank one only where it is blank. -/
theorem normalizeTvSeason_eq_nil_iff {season : Text} :
    normalizeTvSeason season = normalizeTvSeason [] ↔ season.strip = [] := by
  have hblank : normalizeTvSeason [] = [] := by decide
  rw [hblank, normalizeTvSeason]
  split_ifs with hdigits
  · have hne : season.strip ≠ [] := by
      intro hnil
      rw [hnil] at hdigits
      exact absurd hdigits (by decide)
    simp [hne]
  · rfl

end References

/-! ## The siblings that are found -/

theorem TvRows.find_id {t : TvRows} {primary : SubscribeRow} (h : primary ∈ t.rows) :
    t.rows.find? (fun row => row.id = primary.id) = some primary := by
  cases hfind : t.rows.find? fun row => row.id = primary.id with
  | none =>
    have := List.find?_eq_none.mp hfind primary h
    simp at this
  | some row =>
    have hid : row.id = primary.id := by simpa using List.find?_some hfind
    rw [List.inj_on_of_nodup_map t.nodup (List.mem_of_find?_eq_some hfind) h hid]

namespace SiblingOp

variable {t : TvRows} {primary row : SubscribeRow}

theorem mem_finishSiblings (hrow : row ∈ t.rows) (hne : row.id ≠ primary.id) :
    row ∈ finishSiblings t.rows primary ↔
      row.overEdition = false ∧ tvFilterSignature row = tvFilterSignature primary ∧
        rowRef row = rowRef primary ∧ (primary.season = [] ∨ row.season = primary.season) := by
  have hid := t.pos row hrow
  simp only [finishSiblings, List.mem_filter, decide_eq_true_eq, Bool.not_eq_true]
  tauto

theorem mem_findTvSiblings (hprimary : primary ∈ t.rows) (hrow : row ∈ t.rows)
    (hne : row.id ≠ primary.id) {m : MediaInfo} :
    row ∈ findTvSiblings t.rows primary.id m ↔
      row.overEdition = false ∧ tvFilterSignature row = tvFilterSignature primary ∧
        orEmpty row.tmdbId = m.tmdbId.toText ∧
          (m.getSeasonString = [] ∨ row.season = m.getSeasonString) := by
  simp only [findTvSiblings, TvRows.find_id hprimary, List.mem_filter, decide_eq_true_eq,
    Option.all_some, Bool.not_eq_true]
  tauto

/-- A row that a search takes is a sibling where its work and its season are right. -/
theorem sibling_iff {m : Option MediaInfo} (hplain : row.overEdition = false)
    (hfilters : tvFilterSignature row = tvFilterSignature primary) :
    Sibling primary m row ↔ SameWork primary m row ∧
      normalizeTvSeason row.season = normalizeTvSeason primary.season := by
  constructor
  · intro h
    exact ⟨h.work, h.season⟩
  · intro h
    exact ⟨h.1, h.2, hfilters, hplain⟩

theorem finish_sibling_iff (hrow : row ∈ t.rows) (hne : row.id ≠ primary.id) :
    (row ∈ finishSiblings t.rows primary → Sibling primary none row) ↔
      (row.overEdition = false → tvFilterSignature row = tvFilterSignature primary →
        finish.FitsRow primary row) := by
  rw [mem_finishSiblings hrow hne]
  simp only [and_imp, FitsRow]
  refine forall_congr' fun hplain => forall_congr' fun hfilters => ?_
  refine forall_congr' fun href => forall_congr' fun hseason => ?_
  rw [sibling_iff hplain hfilters, sameWork_of_rowRef_eq href]
  refine and_congr_right fun _ => ?_
  by_cases hnil : primary.season = []
  · rw [hnil, normalizeTvSeason_eq_nil_iff]
    simp
  · simp [hnil, hseason.resolve_left hnil]

theorem lack_sibling_iff (hprimary : primary ∈ t.rows) (hrow : row ∈ t.rows)
    (hne : row.id ≠ primary.id) {m : MediaInfo} :
    (row ∈ findTvSiblings t.rows primary.id m → Sibling primary (some m) row) ↔
      (row.overEdition = false → tvFilterSignature row = tvFilterSignature primary →
        (clearLack (some m)).FitsRow primary row) := by
  rw [mem_findTvSiblings hprimary hrow hne]
  simp only [and_imp, FitsRow]
  refine forall_congr' fun hplain => forall_congr' fun hfilters => ?_
  refine forall_congr' fun htmdb => forall_congr' fun _ => ?_
  rw [sibling_iff hplain hfilters, sameWork_of_tmdbId_eq htmdb]

theorem found_sibling_iff (hprimary : primary ∈ t.rows) (hrow : row ∈ t.rows)
    (hne : row.id ≠ primary.id) (op : SiblingOp) :
    (row ∈ op.found t.rows primary → Sibling primary op.media row) ↔
      (row.overEdition = false → tvFilterSignature row = tvFilterSignature primary →
        op.FitsRow primary row) := by
  cases op with
  | finish => exact finish_sibling_iff hrow hne
  | clearLack m =>
    cases m with
    | none => simp [found, FitsRow]
    | some m => exact lack_sibling_iff hprimary hrow hne
  | updateLack m seasoninfo => exact lack_sibling_iff hprimary hrow hne

/-- **The siblings that are written**: for every table and every subscription of it, an
operation changes or deletes another subscription only where that is a sibling, exactly where
the rows that the search takes for want of a reference, or of a season, are siblings. -/
theorem siblings_written_iff (t : TvRows) (primary : SubscribeRow) (op : SiblingOp)
    (hprimary : primary ∈ t.rows) : WritesSiblings t primary op ↔ op.Fits t primary := by
  have hwritten : WritesSiblings t primary op ↔ ∀ row ∈ t.rows, row.id ≠ primary.id →
      (row ∈ op.found t.rows primary → Sibling primary op.media row) := by
    constructor
    · intro h row hrow hne hfound
      obtain ⟨table, hchanged⟩ := (written_iff_found hrow hne).mpr hfound
      exact h table row hrow hne hchanged
    · intro h table row hrow hne hchanged
      exact h row hrow hne ((written_iff_found hrow hne).mp ⟨table, hchanged⟩)
  rw [hwritten]
  refine forall_congr' fun row => forall_congr' fun hrow => forall_congr' fun hne => ?_
  exact found_sibling_iff hprimary hrow hne op

/-- The subscription of a user to the first season of a show. -/
def firstSeason (id : ℕ) (provider externalId : Text) : SubscribeRow :=
  { id := id
    name := of "Show"
    season := of "S01"
    anchorProvider := some provider
    anchorExternalId := some externalId }

/-- Two users subscribe to one show. -/
def sharedShow : TvRows where
  rows := [firstSeason 1 (of "bangumi") (of "7"), firstSeason 2 (of "bangumi") (of "7")]
  nodup := by decide
  pos := by decide

/-- One of them is completed with the other. -/
theorem sharedShow_finished :
    WritesSiblings sharedShow (firstSeason 1 (of "bangumi") (of "7")) finish := by
  refine (siblings_written_iff _ _ _ (by decide)).mpr ?_
  intro row _ _ _ _ _ _
  refine ⟨?_, ?_⟩
  · intro hnil
    exact absurd hnil (by decide)
  · intro hnil
    exact absurd hnil (by decide)

/-- Subscriptions to two shows that TMDB does not list. -/
def otherShows : TvRows where
  rows := [firstSeason 1 (of "bangumi") (of "7"), firstSeason 2 (of "bangumi") (of "8")]
  nodup := by decide
  pos := by decide

/-- The lacking episodes of one are cleared with those of the other. -/
theorem other_show_cleared :
    ¬WritesSiblings otherShows (firstSeason 1 (of "bangumi") (of "7"))
      (clearLack (some { type := some .tv, beginSeason := some 1 })) := by
  intro h
  have hsibling := h (fun _ => TvWrite.untouched) (firstSeason 2 (of "bangumi") (of "8"))
    (by decide) (by decide) (by decide)
  exact absurd hsibling.work (by decide)

end SiblingOp

end WolfNas
