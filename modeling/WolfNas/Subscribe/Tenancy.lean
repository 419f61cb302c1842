import WolfNas.Lib.Table
import WolfNas.Subscribe.TvTable

/-!
# Subscriptions of other users

A user who is not a superadmin changes and deletes subscriptions of his own.  The condition on the
owner is put on the query of the subscription; the episode lists and the torrent records are
written by statements of their own.

## Main definitions

* `OwnedRow` — a subscription with its owner and its columns.
* `SubscribeStore` — the movies, the TV shows, the episode lists and the torrent records.
* `SubscribeCall`, `SubscribeStore.run` — the calls that carry a user.
* `SubscribeStore.others` — the rows that belong to subscriptions of other users.
* `SubscribeStore.Spares` — when a call leaves them alone.

## Main results

* `SubscribeStore.others_run_iff` — a call of a user leaves the rows of the others exactly then.
* `SubscribeStore.others_changed` — the episode list of another user is overwritten.
-/

namespace WolfNas

open Text

/-! ## Rows -/

/-- The columns of a subscription that the calls write. -/
inductive Column
  | name | year | season | tmdbid | image | rssSites | searchSites | overEdition | filterRestype
  | filterPix | filterRule | filterTeam | filterInclude | filterExclude | filterFree | savePath
  | downloadSetting | fuzzyMatch | totalEp | currentEp | total | lack | state | stateUpdatedAt
  | desc | note | keyword | identityId | anchorProvider | anchorExternalId | contentProfile
  | provider | metadataRef | metadataPolicy | namingProfile
  deriving DecidableEq

/-- A value that is given for a column, or stored in it.  A list is known by its JSON text and by
its Python text. -/
inductive ColumnValue
  | null
  | int (n : ℤ)
  | text (t : Text)
  | list (json shown : Text)
  deriving DecidableEq

namespace ColumnValue

/-- `bool(v)`. -/
def truthy : ColumnValue → Bool
  | null => false
  | int n => n ≠ 0
  | text t => t ≠ []
  | list _ shown => shown ≠ of "[]"

/-- `str(v)`. -/
def str : ColumnValue → Text
  | null => of "None"
  | int n => ofInt n
  | text t => t
  | list _ shown => shown

/-- `str(v) if v else ""`. -/
def orEmpty (v : ColumnValue) : Text := if v.truthy then v.str else []

end ColumnValue

/-- The columns of numbers. -/
def Column.isNumber : Column → Bool
  | overEdition | filterRule | filterFree | downloadSetting | fuzzyMatch | totalEp | currentEp
  | total | lack => true
  | _ => false

/-- A column of texts keeps a number as its text. -/
def Column.stored (column : Column) : ColumnValue → ColumnValue
  | .int n => if column.isNumber then .int n else .text (ofInt n)
  | v => v

/-- A row of `SUBSCRIBE_MOVIES` or of `SUBSCRIBE_TVS`. -/
structure OwnedRow where
  id : ℕ
  userId : Option ℕ
  columns : Column → ColumnValue

/-- A row of `SUBSCRIBE_TV_EPISODES`; its `RSSID` is read as a number. -/
structure SubscribeTvEpisodes where
  rssid : ℕ
  episodes : Text
  deriving DecidableEq

/-- A row of `SUBSCRIBE_TORRENTS`. -/
structure SubscribeTorrents where
  enclosure : Text
  title : Text
  year : Text
  season : Text
  deriving DecidableEq

/-- The tables. -/
structure SubscribeStore where
  movies : Table OwnedRow.id
  tvs : Table OwnedRow.id
  episodes : List SubscribeTvEpisodes
  torrents : List SubscribeTorrents

namespace OwnedRow

variable (r : OwnedRow)

/-- A column read as a text: `str(v) if v else ""`. -/
def text (column : Column) : Text := (r.columns column).orEmpty

/-- The row after an update of its columns. -/
def write (fields : List (Column × ColumnValue)) : OwnedRow :=
  { r with columns := fields.foldl (fun columns field =>
      Function.update columns field.1 (field.1.stored field.2)) r.columns }

/-- The torrent records that go with a movie. -/
def movieTorrent (t : SubscribeTorrents) : Bool :=
  r.text .name ≠ [] ∧ t.title = r.text .name ∧ t.year = r.text .year

/-- The torrent records that go with a TV show. -/
def tvTorrent (t : SubscribeTorrents) : Bool := r.movieTorrent t ∧ t.season = r.text .season

end OwnedRow

/-! ## The fields of an update -/

/-- `field_map` of `update_rss_movie`. -/
def movieFieldMap : List (Text × Column) :=
  [(of "name", .name), (of "year", .year), (of "tmdbid", .tmdbid), (of "image", .image),
    (of "rss_sites", .rssSites), (of "search_sites", .searchSites),
    (of "over_edition", .overEdition), (of "filter_restype", .filterRestype),
    (of "filter_pix", .filterPix), (of "filter_rule", .filterRule),
    (of "filter_team", .filterTeam), (of "filter_include", .filterInclude),
    (of "filter_exclude", .filterExclude), (of "filter_free", .filterFree),
    (of "save_path", .savePath), (of "download_setting", .downloadSetting),
    (of "fuzzy_match", .fuzzyMatch), (of "state", .state), (of "desc", .desc),
    (of "note", .note), (of "keyword", .keyword), (of "identity_id", .identityId),
    (of "anchor_provider", .anchorProvider), (of "anchor_external_id", .anchorExternalId),
    (of "content_profile", .contentProfile), (of "provider", .provider),
    (of "metadata_ref", .metadataRef), (of "metadata_policy", .metadataPolicy),
    (of "naming_profile", .namingProfile)]

/-- `field_map` of `update_rss_tv`. -/
def tvFieldMap : List (Text × Column) :=
  movieFieldMap ++ [(of "season", .season), (of "total_ep", .totalEp),
    (of "current_ep", .currentEp), (of "total", .total), (of "lack", .lack)]

/-- `_trim_desc`. -/
def trimDesc (desc : Text) : Text := desc.take 200

/-- What is written for a value that is given. -/
def fieldValue : Column → ColumnValue → ColumnValue
  | .rssSites, .list json _ | .searchSites, .list json _ => .text json
  | .filterFree, v => .int (if v.truthy then 1 else 0)
  | .desc, v => .text (trimDesc v.str)
  | .season, v => .text (normalizeTvSeason v.orEmpty)
  | _, v => v

/-- `update_fields`: what is not in the map, or none, is left out. -/
def updateFields (fieldMap : List (Text × Column)) (kwargs : List (Text × ColumnValue))
    (now : Text) : List (Column × ColumnValue) :=
  let fields := kwargs.filterMap fun (k, v) =>
    (fieldMap.lookup k).bind fun column =>
      if v = .null then none else some (column, fieldValue column v)
  if (fields.lookup .state).isSome then fields ++ [(.stateUpdatedAt, .text now)] else fields

/-- `sync_episodes`. -/
def syncEpisodes (fields : List (Column × ColumnValue)) : Option (List ℤ) :=
  (fields.lookup .currentEp).map fun cur =>
    let total := (fields.lookup .total).getD .null
    match cur, if total.truthy then total else (fields.lookup .totalEp).getD .null with
    | .int cur, .int total => if 0 < cur ∧ cur ≤ total then Int.range cur (total + 1) else []
    | _, _ => []

/-- `",".join(str(e) for e in sync_episodes)`. -/
def episodesText (episodes : List ℤ) : Text := [','].intercalate (episodes.map ofInt)

/-- The fields with the number of the lacking episodes. -/
def syncLack (fields : List (Column × ColumnValue)) : List (Column × ColumnValue) :=
  match syncEpisodes fields with
  | some episodes => fields ++ [(.lack, .int episodes.length)]
  | none => fields

/-! ## The calls -/

/-- A call that carries a user.  A text that is none is blank, but for the year, which is compared
as `str(year)`; an id that is none is 0. -/
inductive SubscribeCall
  | updateMovie (rssid : ℕ) (kwargs : List (Text × ColumnValue)) (now : Text)
  | updateTv (rssid : ℕ) (kwargs : List (Text × ColumnValue)) (now : Text)
  | deleteMovie (title year : Text) (rssid : ℕ) (tmdbid : Text)
  | deleteTv (title season : Text) (rssid : ℕ) (tmdbid : Text)

namespace SubscribeStore

variable (refuses : List (Column × ColumnValue) → List OwnedRow → Bool) (store : SubscribeStore)
  (user : Option UserContext)

/-- The row of an id, if the user may write it. -/
def find (t : Table OwnedRow.id) (rssid : ℕ) : Option OwnedRow :=
  t.rows.find? fun r => r.id = rssid && TvUpdate.owned user r.userId

/-- `UPDATE` of the row of an id that the user may write. -/
def updateOwned (t : Table OwnedRow.id) (rssid : ℕ) (fields : List (Column × ColumnValue)) :
    Table OwnedRow.id :=
  t.update rssid (fun r => if TvUpdate.owned user r.userId then r.write fields else r) <| by
    intro r
    split_ifs <;> rfl

/-- The rows of a table that a condition holds of are deleted. -/
def without (t : Table OwnedRow.id) (p : OwnedRow → Bool) : Table OwnedRow.id where
  rows := t.rows.filter fun r => !p r
  nodup := t.nodup.sublist ((List.filter_sublist).map _)

/-- `update_rss_movie`.  A statement that the database refuses is rolled back, and raises. -/
def updateMovie (rssid : ℕ) (kwargs : List (Text × ColumnValue)) (now : Text) :
    SubscribeStore × Option ℤ :=
  if rssid = 0 then (store, some (-1)) else
    let fields := updateFields movieFieldMap kwargs now
    let movies := updateOwned user store.movies rssid fields
    if refuses fields movies.rows then (store, none) else ({ store with movies }, some 0)

/-- The episode list of a TV show is written, or added. -/
def writeEpisodes (episodes : List SubscribeTvEpisodes) (rssid : ℕ) (text : Text) :
    List SubscribeTvEpisodes :=
  if episodes.any fun e => e.rssid = rssid then
    episodes.map fun e => if e.rssid = rssid then { e with episodes := text } else e
  else episodes ++ [⟨rssid, text⟩]

/-- `update_rss_tv`: the episode list is written before the owner is asked for. -/
def updateTv (rssid : ℕ) (kwargs : List (Text × ColumnValue)) (now : Text) :
    SubscribeStore × Option ℤ :=
  if rssid = 0 then (store, some (-1)) else
    let given := updateFields tvFieldMap kwargs now
    let fields := syncLack given
    let tvs := updateOwned user store.tvs rssid fields
    if refuses fields tvs.rows then (store, none) else
      let episodes := (syncEpisodes given).elim store.episodes fun episodes =>
        writeEpisodes store.episodes rssid (episodesText episodes)
      ({ store with tvs, episodes }, some 0)

/-- `delete_rss_movie`. -/
def deleteMovie (title year : Text) (rssid : ℕ) (tmdbid : Text) :
    SubscribeStore × Option ℤ :=
  if title = [] ∧ rssid = 0 then (store, some 0)
  else if rssid ≠ 0 then
    match find user store.movies rssid with
    | some movie =>
      ({ store with
        torrents := store.torrents.filter fun t => !movie.movieTorrent t
        movies := store.movies.drop movie.id }, some 1)
    | none => (store, some 0)
  else
    let wanted := fun r : OwnedRow => TvUpdate.owned user r.userId &&
      (if tmdbid ≠ [] then r.columns .tmdbid = .text tmdbid
        else r.columns .name = .text title ∧ r.columns .year = .text year : Bool)
    ({ store with movies := without store.movies wanted },
      some (store.movies.rows.filter wanted).length)

/-- The id that `delete_rss_tv` goes by; 0 where there is none. -/
def tvToDelete (title season : Text) (rssid : ℕ) (tmdbid : Text) : ℕ :=
  let own := store.tvs.rows.filter fun r => TvUpdate.owned user r.userId
  let inSeason := fun r : OwnedRow => seasonFilter (r.text .season) season
  if rssid ≠ 0 then rssid
  else
    let byTmdb := if tmdbid = [] then none else
      own.find? fun r => r.columns .tmdbid = .text tmdbid && inSeason r
    let id := byTmdb.elim 0 OwnedRow.id
    if id ≠ 0 then id
    else
      let items := own.filter fun r => r.columns .name = .text title && inSeason r
      let item := items.find? fun r =>
        tmdbid = [] || r.text .tmdbid = [] || r.columns .tmdbid = .text tmdbid
      item.elim 0 OwnedRow.id

/-- `delete_rss_tv`. -/
def deleteTv (title season : Text) (rssid : ℕ) (tmdbid : Text) :
    SubscribeStore × Option ℤ :=
  if title = [] ∧ rssid = 0 then (store, some 0)
  else
    let id := store.tvToDelete user title season rssid tmdbid
    match if id = 0 then none else find user store.tvs id with
    | some tv =>
      ({ store with
        torrents := store.torrents.filter fun t => !tv.tvTorrent t
        episodes := store.episodes.filter fun e => e.rssid ≠ id
        tvs := store.tvs.drop tv.id }, some 1)
    | none => (store, some 0)

/-- A call. -/
def run : SubscribeCall → SubscribeStore × Option ℤ
  | .updateMovie rssid kwargs now => store.updateMovie refuses user rssid kwargs now
  | .updateTv rssid kwargs now => store.updateTv refuses user rssid kwargs now
  | .deleteMovie title year rssid tmdbid => store.deleteMovie user title year rssid tmdbid
  | .deleteTv title season rssid tmdbid => store.deleteTv user title season rssid tmdbid

end SubscribeStore

/-! ## The rows of the others -/

/-- Rows of the four tables. -/
@[ext]
structure OthersRows where
  movies : List OwnedRow
  tvs : List OwnedRow
  episodes : List SubscribeTvEpisodes
  torrents : List SubscribeTorrents

/-- The row belongs to another user. -/
def UserContext.foreign (user : UserContext) (r : OwnedRow) : Bool :=
  r.userId ≠ none ∧ r.userId ≠ some user.userId

/-- An episode list of one of the TV shows. -/
def SubscribeTvEpisodes.isOf (tvs : List OwnedRow) (e : SubscribeTvEpisodes) : Bool :=
  tvs.any fun r => r.id = e.rssid

/-- A torrent record that goes with one of the movies or TV shows. -/
def SubscribeTorrents.isOf (movies tvs : List OwnedRow) (t : SubscribeTorrents) : Bool :=
  movies.any (OwnedRow.movieTorrent · t) || tvs.any (OwnedRow.tvTorrent · t)

namespace SubscribeStore

/-- The rows that belong to subscriptions of other users. -/
def others (store : SubscribeStore) (user : UserContext) : OthersRows :=
  let movies := store.movies.rows.filter user.foreign
  let tvs := store.tvs.rows.filter user.foreign
  { movies
    tvs
    episodes := store.episodes.filter (SubscribeTvEpisodes.isOf tvs)
    torrents := store.torrents.filter (SubscribeTorrents.isOf movies tvs) }

/-- A torrent record that goes with a subscription of another user. -/
def sharedTorrent (store : SubscribeStore) (user : UserContext) (t : SubscribeTorrents) : Bool :=
  SubscribeTorrents.isOf (store.movies.rows.filter user.foreign)
    (store.tvs.rows.filter user.foreign) t

/-- A change of the first wanted episode is not of another user's TV show, or its episode list is
that already; a deletion takes no torrent record that goes with a subscription of another user. -/
def Spares (refuses : List (Column × ColumnValue) → List OwnedRow → Bool) (store : SubscribeStore)
    (user : UserContext) : SubscribeCall → Prop
  | .updateMovie _ _ _ => True
  | .updateTv rssid kwargs now =>
    let given := updateFields tvFieldMap kwargs now
    rssid ≠ 0 → (store.tvs.rows.any fun r => user.foreign r && r.id = rssid) →
      refuses (syncLack given) (updateOwned (some user) store.tvs rssid (syncLack given)).rows = false →
      ∀ episodes ∈ syncEpisodes given, (∃ e ∈ store.episodes, e.rssid = rssid) ∧
        ∀ e ∈ store.episodes, e.rssid = rssid → e.episodes = episodesText episodes
  | .deleteMovie _ _ rssid _ =>
    rssid ≠ 0 → ∀ movie ∈ find (some user) store.movies rssid, ∀ t ∈ store.torrents,
      movie.movieTorrent t → store.sharedTorrent user t = false
  | .deleteTv title season rssid tmdbid =>
    let id := store.tvToDelete (some user) title season rssid tmdbid
    (title ≠ [] ∨ rssid ≠ 0) → id ≠ 0 → ∀ tv ∈ find (some user) store.tvs id,
      ∀ t ∈ store.torrents, tv.tvTorrent t → store.sharedTorrent user t = false

variable {refuses : List (Column × ColumnValue) → List OwnedRow → Bool} {store : SubscribeStore}
  {user : UserContext}

/-- What the user may write is not another user's. -/
theorem foreign_of_owned (huser : user.isSuperadmin = false) {r : OwnedRow}
    (h : TvUpdate.owned (some user) r.userId = true) : user.foreign r = false := by
  simp only [TvUpdate.owned, huser, Bool.false_or, decide_eq_true_eq] at h
  simp [UserContext.foreign, h]

/-- An update leaves the rows of other users. -/
theorem filter_updateOwned (huser : user.isSuperadmin = false) (t : Table OwnedRow.id) (rssid : ℕ)
    (fields : List (Column × ColumnValue)) :
    (updateOwned (some user) t rssid fields).rows.filter user.foreign =
      t.rows.filter user.foreign := by
  have hrow : ∀ r : OwnedRow, user.foreign r = true →
      (if r.id = rssid then
        (if TvUpdate.owned (some user) r.userId then r.write fields else r) else r) = r := by
    intro r hr
    by_cases howned : TvUpdate.owned (some user) r.userId = true
    · rw [foreign_of_owned huser howned] at hr
      cases hr
    · rw [if_neg howned, ite_self]
  have hforeign : (user.foreign ∘ fun r : OwnedRow => if r.id = rssid then
      (if TvUpdate.owned (some user) r.userId then r.write fields else r) else r) =
        user.foreign := by
    funext r
    simp only [Function.comp]
    split_ifs
    · rfl
    · rfl
    · rfl
  change (t.rows.map _).filter user.foreign = _
  rw [List.filter_map, hforeign]
  refine (List.map_congr_left ?_).trans (List.map_id _)
  intro r hr
  exact hrow r (List.mem_filter.mp hr).2

theorem find_spec {user : Option UserContext} {t : Table OwnedRow.id} {rssid : ℕ} {r : OwnedRow}
    (h : find user t rssid = some r) :
    r ∈ t ∧ r.id = rssid ∧ TvUpdate.owned user r.userId = true := by
  have hr := List.find?_some h
  simp only [Bool.and_eq_true, decide_eq_true_eq] at hr
  exact ⟨List.mem_of_find?_eq_some h, hr⟩

/-- A row that is found is not another user's. -/
theorem id_ne_of_foreign (huser : user.isSuperadmin = false) {t : Table OwnedRow.id} {rssid : ℕ}
    {r s : OwnedRow} (hr : find (some user) t rssid = some r) (hs : s ∈ t)
    (hforeign : user.foreign s = true) : s.id ≠ rssid := by
  intro hid
  obtain ⟨hmem, hrid, howned⟩ := find_spec hr
  obtain rfl := Table.eq_of_key hs hmem (hid.trans hrid.symm)
  rw [foreign_of_owned huser howned] at hforeign
  cases hforeign

/-- A deletion leaves the rows of other users. -/
theorem filter_drop (huser : user.isSuperadmin = false) {t : Table OwnedRow.id} {rssid : ℕ}
    {r : OwnedRow} (hr : find (some user) t rssid = some r) :
    (t.drop r.id).rows.filter user.foreign = t.rows.filter user.foreign := by
  change (t.rows.filter _).filter user.foreign = _
  rw [List.filter_filter]
  refine List.filter_congr ?_
  intro s hs
  cases hforeign : user.foreign s with
  | false => rfl
  | true =>
    have hne := id_ne_of_foreign huser hr hs hforeign
    rw [← (find_spec hr).2.1] at hne
    simpa using hne

/-- A deletion of the torrent records that a condition holds of. -/
theorem filter_torrents_iff {torrents : List SubscribeTorrents} {p q : SubscribeTorrents → Bool} :
    (torrents.filter fun t => !p t).filter q = torrents.filter q ↔
      ∀ t ∈ torrents, p t → q t = false := by
  rw [List.filter_comm, List.filter_eq_self]
  simp only [List.mem_filter, Bool.not_eq_true']
  constructor
  · intro h t ht hp
    by_contra hq
    have hnot := h t ⟨ht, by simpa using hq⟩
    rw [hp] at hnot
    cases hnot
  · intro h t ht
    by_contra hp
    have hnot := h t ht.1 (by simpa using hp)
    rw [ht.2] at hnot
    cases hnot

theorem others_updateMovie (huser : user.isSuperadmin = false) (rssid : ℕ)
    (kwargs : List (Text × ColumnValue)) (now : Text) :
    (store.updateMovie refuses (some user) rssid kwargs now).1.others user = store.others user := by
  unfold updateMovie
  split_ifs
  · rfl
  · dsimp only
    split_ifs
    · rfl
    · simp only [others, filter_updateOwned huser]

/-- The lists of some TV shows, where one list is written in place of itself. -/
theorem filter_map_episodes {tvs : List OwnedRow} (rssid : ℕ) (text : Text)
    (episodes : List SubscribeTvEpisodes) :
    (episodes.map fun e => if e.rssid = rssid then { e with episodes := text } else e).filter
        (SubscribeTvEpisodes.isOf tvs) =
      (episodes.filter (SubscribeTvEpisodes.isOf tvs)).map fun e =>
        if e.rssid = rssid then { e with episodes := text } else e := by
  have hof : (SubscribeTvEpisodes.isOf tvs ∘ fun e : SubscribeTvEpisodes =>
      if e.rssid = rssid then { e with episodes := text } else e) =
        SubscribeTvEpisodes.isOf tvs := by
    funext e
    simp only [Function.comp]
    split_ifs
    · rfl
    · rfl
  rw [List.filter_map, hof]

/-- An episode list that is written is not one of others. -/
theorem filter_writeEpisodes_of_not {tvs : List OwnedRow} {rssid : ℕ} (text : Text)
    (h : ∀ r ∈ tvs, r.id ≠ rssid) (episodes : List SubscribeTvEpisodes) :
    (writeEpisodes episodes rssid text).filter (SubscribeTvEpisodes.isOf tvs) =
      episodes.filter (SubscribeTvEpisodes.isOf tvs) := by
  have hnot : ∀ e : SubscribeTvEpisodes, e.rssid = rssid →
      SubscribeTvEpisodes.isOf tvs e = false := by
    intro e he
    simp only [SubscribeTvEpisodes.isOf, List.any_eq_false, decide_eq_true_eq]
    intro r hr hid
    exact h r hr (hid.trans he)
  unfold writeEpisodes
  split_ifs
  · rw [filter_map_episodes]
    refine (List.map_congr_left ?_).trans (List.map_id _)
    intro e he
    have hne : e.rssid ≠ rssid := by
      intro heq
      have hof := (List.mem_filter.mp he).2
      rw [hnot e heq] at hof
      cases hof
    exact if_neg hne
  · rw [List.filter_append]
    simp [hnot]

/-- An episode list that is written is one of the lists of others: nothing changes where it is
that already. -/
theorem filter_writeEpisodes_iff {tvs : List OwnedRow} {rssid : ℕ} {text : Text} {r : OwnedRow}
    (hr : r ∈ tvs) (hid : r.id = rssid) {episodes : List SubscribeTvEpisodes} :
    (writeEpisodes episodes rssid text).filter (SubscribeTvEpisodes.isOf tvs) =
        episodes.filter (SubscribeTvEpisodes.isOf tvs) ↔
      (∃ e ∈ episodes, e.rssid = rssid) ∧ ∀ e ∈ episodes, e.rssid = rssid → e.episodes = text := by
  have hof : ∀ e : SubscribeTvEpisodes, e.rssid = rssid →
      SubscribeTvEpisodes.isOf tvs e = true := by
    intro e he
    simp only [SubscribeTvEpisodes.isOf, List.any_eq_true, decide_eq_true_eq]
    exact ⟨r, hr, hid.trans he.symm⟩
  unfold writeEpisodes
  split_ifs with hany
  · have hexists : ∃ e ∈ episodes, e.rssid = rssid := by simpa using hany
    rw [and_iff_right hexists, filter_map_episodes, ← List.map_id (List.filter _ _),
      List.map_map, List.map_inj_left]
    constructor
    · intro h e he hrssid
      have heq := h e (List.mem_filter.mpr ⟨he, hof e hrssid⟩)
      simp only [Function.comp, id, if_pos hrssid] at heq
      rw [← heq]
    · intro h e he
      simp only [Function.comp, id]
      split_ifs with hrssid
      · rw [← h e (List.mem_filter.mp he).1 hrssid]
      · rfl
  · have hnone : ¬∃ e ∈ episodes, e.rssid = rssid := by simpa using hany
    refine iff_of_false ?_ fun h => hnone h.1
    intro h
    have hlength := congrArg List.length h
    rw [List.filter_append] at hlength
    simp [hof] at hlength

theorem others_updateTv_iff (huser : user.isSuperadmin = false) (rssid : ℕ)
    (kwargs : List (Text × ColumnValue)) (now : Text) :
    (store.updateTv refuses (some user) rssid kwargs now).1.others user = store.others user ↔
      store.Spares refuses user (.updateTv rssid kwargs now) := by
  unfold updateTv Spares
  by_cases hid : rssid = 0
  · rw [if_pos hid]
    exact iff_of_true rfl fun hne => absurd hid hne
  · rw [if_neg hid]
    dsimp only
    cases hrefused : refuses (syncLack (updateFields tvFieldMap kwargs now))
        (updateOwned (some user) store.tvs rssid
          (syncLack (updateFields tvFieldMap kwargs now))).rows with
    | true =>
      refine iff_of_true rfl ?_
      intro _ _ hnot
      cases hnot
    | false =>
      simp only [Bool.false_eq_true, if_false, others, filter_updateOwned huser,
        OthersRows.mk.injEq, true_and, and_true]
      cases hsync : syncEpisodes (updateFields tvFieldMap kwargs now) with
      | none =>
        refine iff_of_true rfl ?_
        intro _ _ _ episodes hepisodes
        cases hepisodes
      | some episodes =>
        by_cases hforeign : ∃ r ∈ store.tvs.rows, user.foreign r ∧ r.id = rssid
        · obtain ⟨r, hr, hother, hrid⟩ := hforeign
          have hmem : r ∈ store.tvs.rows.filter user.foreign := List.mem_filter.mpr ⟨hr, hother⟩
          refine (filter_writeEpisodes_iff hmem hrid).trans ?_
          have hany : (store.tvs.rows.any fun r => user.foreign r && r.id = rssid) = true :=
            List.any_eq_true.mpr ⟨r, hr, by simp [hother, hrid]⟩
          constructor
          · rintro h - - - episodes' hepisodes
            obtain rfl := Option.some.inj hepisodes
            exact h
          · intro h
            exact h hid hany trivial episodes rfl
        · refine iff_of_true ?_ ?_
          · refine filter_writeEpisodes_of_not _ ?_ _
            intro r hr hrid
            obtain ⟨hmem, hother⟩ := List.mem_filter.mp hr
            exact hforeign ⟨r, hmem, hother, hrid⟩
          · intro _ hany
            obtain ⟨r, hr, hboth⟩ := List.any_eq_true.mp hany
            simp only [Bool.and_eq_true, decide_eq_true_eq] at hboth
            exact absurd ⟨r, hr, hboth⟩ hforeign

theorem others_deleteMovie_iff (huser : user.isSuperadmin = false) (title year : Text)
    (rssid : ℕ) (tmdbid : Text) :
    (store.deleteMovie (some user) title year rssid tmdbid).1.others user = store.others user ↔
      store.Spares refuses user (.deleteMovie title year rssid tmdbid) := by
  unfold deleteMovie Spares
  by_cases hid : rssid = 0
  · refine iff_of_true ?_ fun hne => absurd hid hne
    have hwithout : ∀ p : OwnedRow → Bool,
        (∀ r, p r = true → TvUpdate.owned (some user) r.userId = true) →
        (without store.movies p).rows.filter user.foreign =
          store.movies.rows.filter user.foreign := by
      intro p hp
      change (store.movies.rows.filter _).filter user.foreign = _
      rw [List.filter_filter]
      refine List.filter_congr ?_
      intro r _
      cases hdrop : p r with
      | false => simp
      | true => simp [foreign_of_owned huser (hp r hdrop)]
    by_cases hblank : title = [] ∧ rssid = 0
    · rw [if_pos hblank]
    · rw [if_neg hblank, if_neg (not_not.mpr hid)]
      simp only [others]
      rw [hwithout]
      intro r hr
      exact (Bool.and_eq_true_iff.mp hr).1
  · rw [if_neg (by simp [hid]), if_pos hid]
    cases hfind : find (some user) store.movies rssid with
    | none =>
      refine iff_of_true rfl ?_
      intro _ movie hmovie
      cases hfind.symm.trans hmovie
    | some movie =>
      simp only [others, filter_drop huser hfind, OthersRows.mk.injEq, true_and]
      rw [filter_torrents_iff]
      constructor
      · rintro h - movie' hmovie
        obtain rfl := Option.some.inj (hfind.symm.trans hmovie)
        exact h
      · intro h
        exact h hid movie hfind

/-- The episode lists that are deleted with a TV show are not those of others. -/
theorem filter_episodes_of_find (huser : user.isSuperadmin = false) {rssid : ℕ} {tv : OwnedRow}
    (h : find (some user) store.tvs rssid = some tv) :
    (store.episodes.filter fun e => e.rssid ≠ rssid).filter
        (SubscribeTvEpisodes.isOf (store.tvs.rows.filter user.foreign)) =
      store.episodes.filter (SubscribeTvEpisodes.isOf (store.tvs.rows.filter user.foreign)) := by
  rw [List.filter_filter]
  refine List.filter_congr ?_
  intro e _
  cases hof : SubscribeTvEpisodes.isOf (store.tvs.rows.filter user.foreign) e with
  | false => rfl
  | true =>
    simp only [SubscribeTvEpisodes.isOf, List.any_eq_true, decide_eq_true_eq] at hof
    obtain ⟨r, hr, hid⟩ := hof
    obtain ⟨hmem, hforeign⟩ := List.mem_filter.mp hr
    have hne := id_ne_of_foreign huser h hmem hforeign
    rw [hid] at hne
    simpa using hne

theorem others_deleteTv_iff (huser : user.isSuperadmin = false) (title season : Text)
    (rssid : ℕ) (tmdbid : Text) :
    (store.deleteTv (some user) title season rssid tmdbid).1.others user = store.others user ↔
      store.Spares refuses user (.deleteTv title season rssid tmdbid) := by
  unfold deleteTv Spares
  by_cases hgiven : title = [] ∧ rssid = 0
  · rw [if_pos hgiven]
    simp [hgiven]
  · rw [if_neg hgiven]
    have hcall : title ≠ [] ∨ rssid ≠ 0 := not_and_or.mp hgiven
    by_cases hid : store.tvToDelete (some user) title season rssid tmdbid = 0
    · refine iff_of_true ?_ fun _ hne => absurd hid hne
      simp only [hid, if_true]
    · simp only [if_neg hid]
      cases hfind : find (some user) store.tvs
          (store.tvToDelete (some user) title season rssid tmdbid) with
      | none =>
        refine iff_of_true rfl ?_
        intro _ _ tv htv
        cases htv
      | some tv =>
        have hepisodes := @filter_episodes_of_find store user huser _ tv hfind
        simp only [others, filter_drop huser hfind, OthersRows.mk.injEq, true_and, hepisodes]
        rw [filter_torrents_iff]
        constructor
        · rintro h - - tv' htv
          obtain rfl := Option.some.inj htv
          exact h
        · intro h
          exact h hcall hid tv rfl

/-- **Rows of other users**: a call of a user who is not a superadmin leaves the subscriptions of
others, their episode lists and their torrent records as they are exactly where it spares them. -/
theorem others_run_iff (refuses : List (Column × ColumnValue) → List OwnedRow → Bool)
    (store : SubscribeStore) (user : UserContext) (huser : user.isSuperadmin = false)
    (call : SubscribeCall) :
    (store.run refuses (some user) call).1.others user = store.others user ↔
      store.Spares refuses user call := by
  cases call with
  | updateMovie rssid kwargs now =>
    exact iff_of_true (others_updateMovie huser rssid kwargs now) trivial
  | updateTv rssid kwargs now => exact others_updateTv_iff huser rssid kwargs now
  | deleteMovie title year rssid tmdbid =>
    exact others_deleteMovie_iff huser title year rssid tmdbid
  | deleteTv title season rssid tmdbid =>
    exact others_deleteTv_iff huser title season rssid tmdbid

/-- A TV show of user 1 that lacks its last three episodes. -/
def ofUserOne : SubscribeStore where
  movies := ⟨[], List.nodup_nil⟩
  tvs := ⟨[⟨7, some 1, fun _ => .null⟩], List.nodup_singleton _⟩
  episodes := [⟨7, of "6,7,8"⟩]
  torrents := []

/-- User 2 changes the first wanted episode of the TV show. -/
def foreignUpdate (currentEp : ℤ) : SubscribeCall :=
  .updateTv 7 [(of "current_ep", .int currentEp), (of "total", .int 8)] []

/-- The list that is there is written again. -/
theorem others_foreignUpdate :
    (ofUserOne.run (fun _ _ => false) (some ⟨2, false⟩) (foreignUpdate 6)).1.others ⟨2, false⟩ =
        ofUserOne.others ⟨2, false⟩ ↔
      ofUserOne.Spares (fun _ _ => false) ⟨2, false⟩ (foreignUpdate 6) :=
  others_run_iff (fun _ _ => false) ofUserOne ⟨2, false⟩ rfl (foreignUpdate 6)

/-- **The episode list of another user** is overwritten. -/
theorem others_changed :
    ¬∀ refuses store user, user.isSuperadmin = false → ∀ call,
      (SubscribeStore.run refuses store (some user) call).1.others user = store.others user := by
  intro h
  have hsame := congrArg OthersRows.episodes
    (h (fun _ _ => false) ofUserOne ⟨2, false⟩ rfl (foreignUpdate 8))
  revert hsame
  decide +kernel

end SubscribeStore

end WolfNas
