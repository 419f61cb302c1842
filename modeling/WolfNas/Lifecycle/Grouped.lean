import WolfNas.Lib.Firsts
import WolfNas.Lib.Url
import WolfNas.Lifecycle.Projection
import Mathlib.Data.List.MinMax
import Mathlib.Data.List.Sort

/-!
# The list of what is under way

The rows of the lifecycle are shown one item for each identity, with the state of its subscription
put over that of its rows; active subscriptions that have no rows are shown as items of their own.

## Main definitions

* `LifecycleRow`, `LifecycleSubscription`, `LifecycleStore` — the tables.
* `groupItem` — `_group_lifecycle_rows`, of one identity.
* `LifecycleStore.applySubscription` — `_apply_subscription_state`.
* `LifecycleStore.listGrouped`, `LifecycleStore.statsItems` — `list_grouped`, `stats_grouped`.

## Main results

* `groupItem_eq_some` — the item of an identity has its number, type and title from one of the
  rows.
-/

namespace WolfNas

open Text

/-! ## The tables -/

/-- A row of `MEDIA_LIFECYCLE` with its id and what it is about. -/
structure LifecycleRow where
  id : ℕ
  item : LifecycleItem
  row : MediaLifecycle
  deriving DecidableEq

/-- A row of `SUBSCRIBE_TVS` or `SUBSCRIBE_MOVIES`, as far as it is read; what is not set is blank
or 0. -/
structure LifecycleSubscription where
  identityId : Text
  state : Text
  total : ℕ := 0
  totalEp : ℕ := 0
  currentEp : ℕ := 0
  lack : ℕ := 0
  userId : Option ℕ := none
  name : Option Text := none
  year : Option Text := none
  poster : Option Text := none
  season : Text := []
  provider : Option Text := none
  contentProfile : Text := []
  deriving DecidableEq

/-- The tables, in the order in which the database returns their rows; the events in the order of
their ids.  Ids count from 1. -/
structure LifecycleStore where
  rows : List LifecycleRow := []
  events : List LifecycleEvent := []
  tvs : List LifecycleSubscription := []
  movies : List LifecycleSubscription := []
  /-- The identities in `SUBSCRIBE_HISTORY`. -/
  completed : List Text := []
  id_pos : ∀ r ∈ rows, 0 < r.id := by decide

/-- An item of the list. -/
structure LifecycleGroup where
  id : ℕ
  item : LifecycleItem
  stage : LifecycleStage
  status : LifecycleStatus
  stageStartedAt : ℕ
  lastEventAt : ℕ
  details : LifecycleDetails
  activeStage : Option LifecycleStage := none
  episodeCount : ℕ
  completedEpisodes : ℕ
  inLibraryEpisodes : ℕ
  subscribedEpisodes : Option ℕ := none
  /-- `ACTIVITY_AT`; the least time is 0. -/
  activityAt : ℕ := 0
  deriving DecidableEq

/-! ## One item for each identity -/

/-- `status_priority`. -/
def statusPriority : LifecycleStatus → ℕ
  | .succeeded => 0
  | .cancelled => 1
  | .queued => 2
  | .retrying => 3
  | .running => 4
  | .blocked => 5
  | .failed => 6
  | .dead => 7
  | .paused => 0

/-- The rows of single episodes, if there are any, or else all. -/
def stateRows (rows : List LifecycleRow) : List LifecycleRow :=
  let episodes := rows.filter fun r => 0 < r.item.episode
  if episodes ≠ [] then episodes else rows

/-- A row with a task that has at least come to the queue of downloads. -/
def LifecycleRow.Active (r : LifecycleRow) : Prop :=
  r.row.status ∈ [LifecycleStatus.queued, .running, .retrying] ∧
    stageRank .downloadQueued ≤ stageRank r.row.stage

instance (r : LifecycleRow) : Decidable r.Active := inferInstanceAs (Decidable (_ ∧ _))

/-- A row of an episode that is in the library. -/
def LifecycleRow.InLibrary (r : LifecycleRow) : Prop :=
  r.row.stage = .inLibrary ∧ r.row.status = .succeeded

instance (r : LifecycleRow) : Decidable r.InLibrary := inferInstanceAs (Decidable (_ ∧ _))

/-- The stage that is farthest on. -/
def latestStage (rows : List LifecycleRow) : Option LifecycleStage :=
  (rows.argmax fun r => stageRank r.row.stage).map fun r => r.row.stage

/-- The status that matters most; what has succeeded without having come to an end goes on. -/
def groupStatus (stage : LifecycleStage) (rows : List LifecycleRow) : Option LifecycleStatus :=
  (rows.argmax fun r => statusPriority r.row.status).map fun r =>
    if r.row.status = .succeeded ∧ stage ∉ [.scraped, .inLibrary] then .running
    else r.row.status

/-- `_group_lifecycle_rows`, of the rows of one identity; none where it has no rows. -/
def groupItem (rows : List LifecycleRow) : Option LifecycleGroup :=
  (rows.argmax fun r => r.row.lastEventAt).map fun representative =>
    let states := stateRows rows
    let episodes := rows.filter fun r => 0 < r.item.episode
    let stage := (latestStage states).getD representative.row.stage
    let inLibrary := states.countP fun r => r.InLibrary
    let greatest (f : LifecycleRow → ℕ) (l : List LifecycleRow) : ℕ := (l.map f).foldl max 0
    let details := representative.row.details
    { id := representative.id
      item := if episodes ≠ [] then
          { representative.item with
            season := greatest (fun r => r.item.season) episodes
            episode := greatest (fun r => r.item.episode) episodes }
        else representative.item
      stage
      status := (groupStatus stage states).getD representative.row.status
      stageStartedAt := greatest (fun r => r.row.stageStartedAt) rows
      lastEventAt := greatest (fun r => r.row.lastEventAt) rows
      details := { details with
        sourceProvider := ((states.map fun r => r.row.details.sourceProvider).find? fun p =>
          ¬vagueProvider p).getD details.sourceProvider
        progress := some (inLibrary * 100 / states.length) }
      activeStage := latestStage (states.filter fun r => r.Active)
      episodeCount := states.length
      completedEpisodes := inLibrary
      inLibraryEpisodes := inLibrary }

/-- The item of an identity has its number, type and title from one of the rows. -/
theorem groupItem_eq_some {rows : List LifecycleRow} {x : LifecycleGroup}
    (h : groupItem rows = some x) :
    ∃ r ∈ rows, x.id = r.id ∧ x.item.identityId = r.item.identityId ∧
      x.details.mediaType = r.row.details.mediaType ∧ x.details.title = r.row.details.title := by
  obtain ⟨r, hr, rfl⟩ := Option.map_eq_some_iff.mp h
  refine ⟨r, List.argmax_mem hr, rfl, ?_, rfl, rfl⟩
  dsimp only
  split_ifs <;> rfl

theorem groupItem_isSome {rows : List LifecycleRow} (h : rows ≠ []) :
    ∃ x, groupItem rows = some x := by
  cases hmax : rows.argmax fun r => r.row.lastEventAt with
  | none => exact absurd (List.argmax_eq_none.mp hmax) h
  | some r => exact ⟨_, by rw [groupItem, hmax]; rfl⟩

/-- The rows of an identity. -/
def rowsOf (rows : List LifecycleRow) (identity : Text) : List LifecycleRow :=
  rows.filter fun r => r.item.identityId = identity

/-- The identities of the rows, in the order of their first rows. -/
def identitiesOf (rows : List LifecycleRow) : List Text :=
  Firsts.firsts id [] (rows.map fun r => r.item.identityId)

/-! ## The state of the subscriptions -/

/-- `round(a * 100 / b)`, half of a percent to the even number. -/
def percent (a b : ℕ) : ℕ :=
  let q := a * 100 / b
  let r := a * 100 % b
  if 2 * r < b then q else if b < 2 * r then q + 1 else if q % 2 = 0 then q else q + 1

namespace LifecycleSubscription

variable (sub : LifecycleSubscription)

/-- `TOTAL or TOTAL_EP`. -/
def totalValue : ℕ := if sub.total ≠ 0 then sub.total else sub.totalEp

/-- The lacking episodes, by the current episode where that is one of the season. -/
def lackValue : ℕ :=
  if sub.totalValue ≠ 0 ∧ 0 < sub.currentEp ∧ sub.currentEp ≤ sub.totalValue then
    sub.totalValue - sub.currentEp + 1
  else sub.lack

/-- The episodes that are there. -/
def completedValue : ℕ := sub.totalValue - sub.lackValue

/-- The states of a subscription that is under way. -/
def activeStates : List Text := ["D", "S", "R"].map of

/-- `queued` before it is searched for, and then `running`. -/
def status (state : Text) : LifecycleStatus := if state = of "D" then .queued else .running

/-- `_active_subscription_items`, of one row of a table. -/
def toItem (movie : Bool) (now : ℕ) : LifecycleGroup :=
  let profile := if sub.contentProfile ≠ [] then sub.contentProfile else of "default"
  let default := if movie then of "movie" else of "tv"
  let total := sub.totalValue
  { id := 0
    item :=
      { identityId := sub.identityId
        season := toNat ((sub.season.dropWhile fun c => ¬c.isDigit).takeWhile Char.isDigit)
        episode := 0 }
    stage := if sub.state = of "S" then .searching else .subscribed
    status := status sub.state
    stageStartedAt := now
    lastEventAt := now
    details :=
      { title := sub.name
        year := sub.year
        poster := sub.poster
        userId := sub.userId
        sourceProvider := sub.provider
        mediaType := if profile = of "anime" then of "anime" else default
        contentProfile := some profile
        progress := some (if total ≠ 0 then percent sub.completedValue total else 0) }
    episodeCount := if total ≠ 0 then total else if movie then 1 else 0
    completedEpisodes := sub.completedValue
    inLibraryEpisodes := sub.completedValue
    subscribedEpisodes := some sub.completedValue
    activityAt := now }

end LifecycleSubscription

namespace LifecycleStore

variable (s : LifecycleStore)

/-- `_subscription_map`: the longest of the subscriptions of an identity. -/
def subscriptionOf (identity : Text) : Option LifecycleSubscription :=
  if identity = [] then none
  else (s.tvs.filter fun sub => sub.identityId = identity).argmax
    LifecycleSubscription.totalValue

/-- `_active_subscription_identities`. -/
def Subscribed (identity : Text) : Prop :=
  identity ≠ [] ∧ ∃ sub ∈ s.tvs ++ s.movies, sub.identityId = identity

/-- `_completed_subscription_identities`. -/
def Completed (identity : Text) : Prop := identity ≠ [] ∧ identity ∈ s.completed

/-- `_cancelled_subscription_identities`: the last event of the subscription cancelled it. -/
def Cancelled (identity : Text) : Prop :=
  identity ≠ [] ∧
    ((s.events.filter fun e => e.item.identityId = identity ∧
      e.eventType ∈ ["search.started", "subscribe.cancelled", "subscribe.completed"].map of).getLast?.map
        LifecycleEvent.eventType) = some (of "subscribe.cancelled")

instance (identity : Text) : Decidable (s.Subscribed identity) :=
  inferInstanceAs (Decidable (_ ∧ _))

instance (identity : Text) : Decidable (s.Completed identity) :=
  inferInstanceAs (Decidable (_ ∧ _))

instance (identity : Text) : Decidable (s.Cancelled identity) :=
  inferInstanceAs (Decidable (_ ∧ _))

/-- The episodes of the season, by its subscription. -/
def countTotal (sub : LifecycleSubscription) (x : LifecycleGroup) : LifecycleGroup :=
  let total := sub.totalValue
  let completed := min total x.completedEpisodes
  if total ≠ 0 then
    { x with
      episodeCount := max x.episodeCount total
      completedEpisodes := completed
      subscribedEpisodes := some (min total sub.completedValue)
      details := { x.details with progress := some (percent completed total) } }
  else x

/-- The stage and the status, by the subscription. -/
def showState (sub : LifecycleSubscription) (x : LifecycleGroup) : LifecycleGroup :=
  let status := LifecycleSubscription.status sub.state
  if sub.state ∈ LifecycleSubscription.activeStates then
    match x.activeStage with
    | some stage => { x with stage, status }
    | none =>
      if x.stage ∉ [.scraped, .inLibrary] then { x with stage := .subscribed, status }
      else if x.status = .succeeded then { x with status }
      else x
  else if sub.state = of "E" then { x with status := .failed }
  else if sub.state = of "N" then { x with status := .cancelled }
  else x

/-- `_apply_subscription_state`, of one item. -/
def applySubscription (x : LifecycleGroup) : LifecycleGroup :=
  let identity := x.item.identityId
  if ¬s.Subscribed identity ∧ s.Cancelled identity ∧ x.stage ≠ .inLibrary then
    { x with status := .cancelled }
  else match s.subscriptionOf identity with
  | none =>
    if ¬s.Subscribed identity ∧ ¬s.Completed identity ∧ x.stage ∈ [.subscribed, .searching] ∧
        x.status ∈ [.queued, .running, .retrying] then
      { x with status := .cancelled }
    else x
  | some sub => showState sub (countTotal sub x)

/-! ## The list and its counts -/

/-- When something happened to an identity, other than by its being found again. -/
def activityOf (identity : Text) : ℕ :=
  ((s.events.filter fun e => e.item.identityId = identity ∧
    e.eventType ∉ ["reconcile.library.present", "reconcile.scrape.completed"].map of).map
      LifecycleEvent.occurredAt).foldl max 0

/-- The item of an identity. -/
def itemOf (rows : List LifecycleRow) : Option LifecycleGroup :=
  (groupItem rows).map fun x =>
    s.applySubscription { x with activityAt := s.activityOf x.item.identityId }

/-- The rows that a user sees. -/
def visible (sees : Option ℕ → Bool) : List LifecycleRow :=
  s.rows.filter fun r => r.item.identityId ≠ of "preview" ∧ sees r.row.details.userId = true

/-- `_active_subscription_items`, before those are left out that have an item. -/
def subscriptionItems (sees : Option ℕ → Bool) (now : ℕ) : List LifecycleGroup :=
  let active (sub : LifecycleSubscription) : Bool :=
    sub.state ∈ LifecycleSubscription.activeStates ∧ sub.identityId ≠ [] ∧ sees sub.userId = true
  (s.tvs.filter active).map (LifecycleSubscription.toItem · false now) ++
    (s.movies.filter active).map (LifecycleSubscription.toItem · true now)

end LifecycleStore

/-- `LifecycleStage.value`. -/
def LifecycleStage.value : LifecycleStage → Text
  | identified => of "identified"
  | subscribed => of "subscribed"
  | searching => of "searching"
  | downloadQueued => of "download_queued"
  | downloading => of "downloading"
  | downloaded => of "downloaded"
  | transferQueued => of "transfer_queued"
  | transferring => of "transferring"
  | transferred => of "transferred"
  | scrapeQueued => of "scrape_queued"
  | scraping => of "scraping"
  | scraped => of "scraped"
  | inLibrary => of "in_library"

/-- `LifecycleStatus.value`. -/
def LifecycleStatus.value : LifecycleStatus → Text
  | queued => of "queued"
  | running => of "running"
  | succeeded => of "succeeded"
  | failed => of "failed"
  | retrying => of "retrying"
  | blocked => of "blocked"
  | cancelled => of "cancelled"
  | paused => of "paused"
  | dead => of "dead"

/-- The filters of `list_grouped`; a blank one is none. -/
structure LifecycleFilter where
  mediaType : Text := []
  keyword : Text := []
  stage : Text := []
  status : Text := []
  deriving DecidableEq

namespace LifecycleFilter

variable (f : LifecycleFilter)

/-- The filters that the query of the rows has: the type, and the title by `ILIKE`. -/
def Kind (mediaType : Text) (title : Option Text) : Prop :=
  (f.mediaType = [] ∨ mediaType = f.mediaType) ∧
    (f.keyword = [] ∨ ∃ t ∈ title, Text.like ('%' :: f.keyword ++ ['%']) t = true)

instance (mediaType : Text) (title : Option Text) : Decidable (f.Kind mediaType title) :=
  inferInstanceAs (Decidable (_ ∧ _))

/-- A row passes the query. -/
def Passes (r : LifecycleRow) : Prop := f.Kind r.row.details.mediaType r.row.details.title

instance (r : LifecycleRow) : Decidable (f.Passes r) := inferInstanceAs (Decidable (f.Kind _ _))

/-- The item of a subscription passes the keyword. -/
def PassesKeyword (x : LifecycleGroup) : Prop :=
  f.keyword = [] ∨ lower f.keyword.strip <:+: lower (x.details.title.getD [])

instance (x : LifecycleGroup) : Decidable (f.PassesKeyword x) := inferInstanceAs (Decidable (_ ∨ _))

/-- An item passes the filters of the stage and the status. -/
def PassesState (x : LifecycleGroup) : Prop :=
  (f.stage = [] ∨ x.stage.value = f.stage) ∧ (f.status = [] ∨ x.status.value = f.status)

instance (x : LifecycleGroup) : Decidable (f.PassesState x) := inferInstanceAs (Decidable (_ ∧ _))

end LifecycleFilter

/-- The counts of `stats_grouped`. -/
structure LifecycleStats where
  total : ℕ
  byStatus : LifecycleStatus → ℕ
  byStage : LifecycleStage → ℕ

namespace LifecycleStore

variable (s : LifecycleStore) (sees : Option ℕ → Bool) (now : ℕ)

/-- The later time first, and at one time the greater id. -/
def Before (time id time' id' : ℕ) : Prop := time' < time ∨ time' = time ∧ id' ≤ id

instance (time id time' id' : ℕ) : Decidable (Before time id time' id') :=
  inferInstanceAs (Decidable (_ ∨ _))

/-- The rows by their last events, the latest first. -/
def newestFirst (rows : List LifecycleRow) : List LifecycleRow :=
  rows.insertionSort fun r r' => Before r.row.lastEventAt r.id r'.row.lastEventAt r'.id

/-- The items of rows, and of the active subscriptions without rows among them. -/
def itemsOf (rows : List LifecycleRow) : List LifecycleGroup × List LifecycleGroup :=
  ((identitiesOf rows).filterMap fun identity => s.itemOf (rowsOf rows identity),
    (s.subscriptionItems sees now).filter fun x => x.item.identityId ∉ identitiesOf rows)

/-- `list_grouped`, before the list is cut into pages. -/
def listItems (f : LifecycleFilter) : List LifecycleGroup :=
  let (grouped, synthetic) := s.itemsOf sees now
    (newestFirst ((s.visible sees).filter fun r => f.Passes r))
  let grouped := grouped.insertionSort fun x y => y.lastEventAt ≤ x.lastEventAt
  let synthetic := synthetic.filter fun x => f.PassesKeyword x
  let all := (grouped ++ synthetic).insertionSort fun x y =>
    Before x.activityAt x.id y.activityAt y.id
  all.filter fun x => f.PassesState x

/-- `list_grouped`: a page, and how many items there are. -/
def listGrouped (f : LifecycleFilter) (page pagenum : ℕ) : List LifecycleGroup × ℕ :=
  let items := s.listItems sees now f
  ((items.drop ((max 1 page - 1) * max 1 pagenum)).take (max 1 pagenum), items.length)

/-- The items that `stats_grouped` counts. -/
def statsItems : List LifecycleGroup :=
  let (grouped, synthetic) := s.itemsOf sees now (s.visible sees)
  grouped ++ synthetic

/-- `stats_grouped`. -/
def statsGrouped : LifecycleStats where
  total := (s.statsItems sees now).length
  byStatus status := (s.statsItems sees now).countP fun x => x.status = status
  byStage stage := (s.statsItems sees now).countP fun x => x.stage = stage

end LifecycleStore

end WolfNas
