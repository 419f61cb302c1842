import Mathlib.Logic.Function.Basic
import WolfNas.Lib.Text

/-!
# The lifecycle of an item

Everything that happens to an item is kept as an event under a key of its own, and condensed into
one row: the stage the item has reached, and how it stands there.  A later stage moves the row on;
an earlier one only does where it begins a new round.

## Main definitions

* `LifecycleStage`, `stageRank` — the stages, in order.
* `Recording` — the arguments of one call.
* `applySnapshot` — what an event makes of the row.
* `LifecycleRepo.recordEvent` — a key that is there already is applied again, with the time of
  its first occurrence.

## Main results

* `applySnapshot_cases` — everything an event can do to a row.
-/

namespace WolfNas

open Text

/-- `LifecycleStage`. -/
inductive LifecycleStage
  | identified
  | subscribed
  | searching
  | downloadQueued
  | downloading
  | downloaded
  | transferQueued
  | transferring
  | transferred
  | scrapeQueued
  | scraping
  | scraped
  | inLibrary
  deriving DecidableEq, Repr

/-- `LifecycleStatus`. -/
inductive LifecycleStatus
  | queued
  | running
  | succeeded
  | failed
  | retrying
  | blocked
  | cancelled
  | paused
  | dead
  deriving DecidableEq, Repr

/-- `stage_rank`: the place of a stage in the enumeration. -/
def stageRank (s : LifecycleStage) : ℕ := s.ctorIdx

theorem stageRank_inj {s t : LifecycleStage} (h : stageRank s = stageRank t) : s = t := by
  cases s <;> cases t <;> first | rfl | exact absurd h (by decide)

/-- `terminal_stages`. -/
def LifecycleStage.Terminal (s : LifecycleStage) : Prop :=
  s ∈ [inLibrary, scraped, transferred, downloaded]

instance (s : LifecycleStage) : Decidable s.Terminal := inferInstanceAs (Decidable (s ∈ _))

/-- `restart_events`. -/
def restartEvents : List Text :=
  ["download.queued", "download.started", "search.started", "transfer.queued", "transfer.started",
    "scrape.queued", "scrape.started", "reconcile.download.queued",
    "reconcile.download.downloading"].map of

/-- An item: a film, a season or an episode of an identity. -/
structure LifecycleItem where
  identityId : Text
  season : ℕ
  episode : ℕ
  deriving DecidableEq, Repr

/-- The columns of the row that the rule of the stages does not read. -/
structure LifecycleDetails where
  title : Option Text := none
  year : Option Text := none
  poster : Option Text := none
  userId : Option ℕ := none
  sourceProvider : Option Text := none
  seriesKey : Option Text := none
  mediaType : Text := of "movie"
  contentProfile : Option Text := none
  progress : Option ℕ := none
  runId : Option Text := none
  traceId : Option Text := none
  lastError : Option Text := none
  nextRetryAt : Option ℕ := none
  retryCount : ℕ := 0
  deriving DecidableEq, Repr

/-- A row of `MEDIA_LIFECYCLE`, and the snapshot that is written to it. -/
structure MediaLifecycle where
  stage : LifecycleStage
  status : LifecycleStatus
  stageStartedAt : ℕ
  lastEventAt : ℕ
  details : LifecycleDetails
  deriving DecidableEq, Repr

/-- A row of `MEDIA_LIFECYCLE_EVENT`, as far as it is read. -/
structure LifecycleEvent where
  item : LifecycleItem
  stage : LifecycleStage
  eventType : Text
  occurredAt : ℕ
  deriving DecidableEq, Repr

/-- The arguments of a call of `LifecycleProjector.record`. -/
structure Recording where
  eventKey : Text
  item : LifecycleItem
  stage : LifecycleStage
  status : LifecycleStatus
  eventType : Text
  occurredAt : ℕ
  details : LifecycleDetails := {}
  updateSnapshot : Bool := true
  deriving DecidableEq, Repr

namespace Recording

variable (r : Recording)

/-- The event that is stored. -/
def event : LifecycleEvent := ⟨r.item, r.stage, r.eventType, r.occurredAt⟩

/-- The snapshot of the call. -/
def snapshot : MediaLifecycle := ⟨r.stage, r.status, r.occurredAt, r.occurredAt, r.details⟩

end Recording

/-! ## The row -/

/-- A provider that may be replaced. -/
def vagueProvider (provider : Option Text) : Prop :=
  provider ∈ [none, some [], some (of "content_id")]

instance (provider : Option Text) : Decidable (vagueProvider provider) :=
  inferInstanceAs (Decidable (provider ∈ _))

/-- A value that is not blank takes the place of the old one. -/
def keepBlank (old new : Option Text) : Option Text := if new ∈ [none, some []] then old else new

/-- The details after an event; one of an earlier stage leaves the run as it is. -/
def writeDetails (old new : LifecycleDetails) (regressed : Bool) : LifecycleDetails :=
  let run := if regressed then old else new
  { title := keepBlank old.title new.title
    year := keepBlank old.year new.year
    poster := keepBlank old.poster new.poster
    userId := new.userId.or old.userId
    sourceProvider := if vagueProvider new.sourceProvider ∧ ¬vagueProvider old.sourceProvider then
      old.sourceProvider else new.sourceProvider
    seriesKey := new.seriesKey
    mediaType := new.mediaType
    contentProfile := new.contentProfile
    progress := run.progress.or old.progress
    runId := run.runId
    traceId := run.traceId
    lastError := run.lastError
    nextRetryAt := run.nextRetryAt
    retryCount := run.retryCount }

/-- The event begins a new round of a finished item. -/
def Restarts (current : MediaLifecycle) (event : LifecycleEvent) : Prop :=
  current.stage.Terminal ∧ event.eventType ∈ restartEvents ∧
    current.stageStartedAt < event.occurredAt

instance (current : MediaLifecycle) (event : LifecycleEvent) : Decidable (Restarts current event) :=
  inferInstanceAs (Decidable (_ ∧ _))

/-- `_apply_snapshot`. -/
def applySnapshot (current : Option MediaLifecycle) (event : LifecycleEvent)
    (snapshot : MediaLifecycle) : MediaLifecycle :=
  match current with
  | none => snapshot
  | some current =>
    let currentRank := stageRank current.stage
    let eventRank := stageRank event.stage
    let restart := Restarts current event
    let advanced := restart ∨ currentRank < eventRank
    let regressed := eventRank < currentRank ∧ ¬restart
    if ¬advanced ∧ event.occurredAt < current.lastEventAt then
      -- Old events do not change the state; a better provider is taken over.
      if ¬vagueProvider snapshot.details.sourceProvider ∧
          vagueProvider current.details.sourceProvider then
        { current with details.sourceProvider := snapshot.details.sourceProvider }
      else current
    else
      let details := writeDetails current.details snapshot.details regressed
      if regressed then { current with details := details }
      else
        { stage := snapshot.stage
          status := snapshot.status
          stageStartedAt := if advanced then event.occurredAt else current.stageStartedAt
          lastEventAt := if advanced ∧ ¬restart then max snapshot.lastEventAt current.lastEventAt
            else snapshot.lastEventAt
          details := details }

/-- The row, apart from its details. -/
def MediaLifecycle.core (row : MediaLifecycle) : LifecycleStage × LifecycleStatus × ℕ × ℕ :=
  (row.stage, row.status, row.stageStartedAt, row.lastEventAt)

/-- **Everything an event can do to a row**, apart from its details. -/
theorem applySnapshot_cases {c s : MediaLifecycle} {e : LifecycleEvent} :
    (Restarts c e ∧ (applySnapshot (some c) e s).core =
      (s.stage, s.status, e.occurredAt, s.lastEventAt)) ∨
    (¬Restarts c e ∧ stageRank c.stage < stageRank e.stage ∧ (applySnapshot (some c) e s).core =
      (s.stage, s.status, e.occurredAt, max s.lastEventAt c.lastEventAt)) ∨
    (¬Restarts c e ∧ stageRank e.stage = stageRank c.stage ∧ c.lastEventAt ≤ e.occurredAt ∧
      (applySnapshot (some c) e s).core = (s.stage, s.status, c.stageStartedAt, s.lastEventAt)) ∨
    (¬Restarts c e ∧ stageRank e.stage ≤ stageRank c.stage ∧
      (stageRank e.stage < stageRank c.stage ∨ e.occurredAt < c.lastEventAt) ∧
      (applySnapshot (some c) e s).core = c.core) := by
  by_cases hrestart : Restarts c e
  · left
    simp [applySnapshot, MediaLifecycle.core, hrestart]
  right
  rcases Nat.lt_trichotomy (stageRank c.stage) (stageRank e.stage) with hrank | hrank | hrank
  · left
    have hle : ¬stageRank e.stage < stageRank c.stage := by omega
    simp [applySnapshot, MediaLifecycle.core, hrestart, hrank, hle]
  · right
    by_cases hold : e.occurredAt < c.lastEventAt
    · right
      refine ⟨hrestart, by omega, .inr hold, ?_⟩
      simp only [applySnapshot, hrestart, hrank, hold]
      simp only [lt_self_iff_false, or_self, not_false_eq_true, true_and, if_true]
      split <;> rfl
    · left
      refine ⟨hrestart, by omega, by omega, ?_⟩
      simp [applySnapshot, MediaLifecycle.core, hrestart, hrank, hold]
  · right
    right
    have hle : ¬stageRank c.stage < stageRank e.stage := by omega
    refine ⟨hrestart, by omega, .inl hrank, ?_⟩
    by_cases hold : e.occurredAt < c.lastEventAt
    · simp only [applySnapshot, hrestart, hle, hold]
      simp only [or_self, not_false_eq_true, true_and, if_true]
      split <;> rfl
    · simp [applySnapshot, MediaLifecycle.core, hrestart, hrank, hle, hold]

/-! ## The repository -/

/-- The two tables; an event key is there once. -/
structure LifecycleRepo where
  events : Text → Option LifecycleEvent
  rows : LifecycleItem → Option MediaLifecycle

namespace LifecycleRepo

variable (repo : LifecycleRepo) (r : Recording)

/-- `record_event`: a key that is there is applied again, as of its first occurrence. -/
def recordEvent : LifecycleRepo × Bool :=
  match repo.events r.eventKey with
  | some event =>
    if r.updateSnapshot then
      ({ repo with rows := Function.update repo.rows event.item (some (applySnapshot
          (repo.rows event.item) event { r.snapshot with lastEventAt := event.occurredAt })) }, false)
    else (repo, false)
  | none =>
    let stored := { repo with events := Function.update repo.events r.eventKey (some r.event) }
    if r.updateSnapshot then
      ({ stored with rows := Function.update repo.rows r.item (some (applySnapshot
          (repo.rows r.item) r.event r.snapshot)) }, true)
    else (stored, true)

/-- Calls one after another. -/
def recordAll (calls : List Recording) : LifecycleRepo :=
  calls.foldl (fun repo r => (repo.recordEvent r).1) repo

/-- The stage of an item, and how it stands there. -/
def stageStatus (item : LifecycleItem) : Option (LifecycleStage × LifecycleStatus) :=
  (repo.rows item).map fun row => (row.stage, row.status)

end LifecycleRepo

end WolfNas
