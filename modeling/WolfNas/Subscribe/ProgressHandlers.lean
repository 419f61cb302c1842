import WolfNas.Subscribe.LackList

/-!
# Handlers of the progress of a subscription, side by side

Two events change the episodes that a TV subscription lacks: a transfer takes some off, and a
failed transfer puts some back.  Each event has a handler of its own, and the handlers run side
by side: every call of the repository and of the lock is a step, and the steps of the handlers
come in any order.

## Main definitions

* `ProgressEvent` — an event for the subscription.
* `ProgressPhase`, `ProgressHandler` — where a handler stands.
* `ProgressState` — the row of the subscription, its lock, and the handlers.
* `ProgressHandler.next` — a step of a handler.
* `ProgressMove`, `ProgressState.step` — a step of the whole.

## Main results

* `ProgressState.alone_eq_run` — a handler that runs alone does what the consumer of the list
  does.
-/

namespace WolfNas

/-- An event for the subscription. -/
inductive ProgressEvent
  /-- `MEDIA_EPISODE_TRANSFERRED`, with the total number where that is known. -/
  | transferred (downloaded : List ℕ) (totalEpisodes : ℕ)
  /-- `TRANSFER_FAIL`. -/
  | failed (failedEps : List ℕ)
  deriving DecidableEq, Repr

namespace ProgressEvent

/-- The episodes an event names. -/
def episodes : ProgressEvent → List ℕ
  | transferred downloaded _ => downloaded
  | failed failedEps => failedEps

/-- The event is that of a failed transfer. -/
def isFailure : ProgressEvent → Bool
  | transferred _ _ => false
  | failed _ => true

end ProgressEvent

/-- Where a handler stands: what it does next, with what it has read. -/
inductive ProgressPhase
  /-- It looks for the subscription. -/
  | delivered
  /-- It takes the lock; after a failed transfer, it sets the state. -/
  | found
  /-- It reads the list. -/
  | admitted (holding : Bool)
  /-- It reads the first episode of the row. -/
  | ranging (holding : Bool)
  /-- It reads the state of the row, or finalises the subscription. -/
  | computed (holding : Bool) (lack : List ℕ)
  /-- It sets the state. -/
  | marking (holding : Bool) (lack : List ℕ)
  /-- It writes the list. -/
  | writing (holding : Bool) (lack : List ℕ)
  /-- It gives the lock back. -/
  | leaving (holding : Bool)
  | returned
  deriving DecidableEq, Repr

/-- The handler is done with the list. -/
def ProgressPhase.ended : ProgressPhase → Bool
  | leaving _ | returned => true
  | _ => false

/-- A handler at work on its event. -/
structure ProgressHandler where
  event : ProgressEvent
  phase : ProgressPhase := .delivered
  deriving DecidableEq, Repr

/-- Who holds the lock of the subscription's progress. -/
inductive LockHolder
  | handler (place : ℕ)
  | other
  deriving DecidableEq, Repr

/-- The row of the subscription, its lock, and the handlers in the order their events were
delivered in. -/
structure ProgressState where
  row : TvRow
  lock : Option LockHolder := none
  handlers : List ProgressHandler := []
  deriving DecidableEq, Repr

namespace TvRow

variable (s : TvRow)

/-- The stored list of the lacking episodes. -/
def stored : List ℕ := s.episodes.getD []

/-- `update_rss_tv_lack`, which writes the record also where there is no row. -/
def writeLack (lack : List ℕ) : TvRow :=
  if s.state = none then { s with episodes := some lack } else s.updateLack lack

/-- `update_rss_tv_state`, which writes an existing row. -/
def writeState (state : SubscribeState) : TvRow :=
  if s.state = none then s else s.updateState state

/-- `finalize_tv_by_rssid`, which deletes an existing row, and its record. -/
def finalise : TvRow := if s.state = none then s else s.finish

/-- The first wanted episode, as the handler reads it. -/
def firstEpisode : ℕ := if s.state = none then 1 else s.start

/-- The lacking episodes an empty list stands for. -/
def initial (totalEpisodes : ℕ) : List ℕ :=
  List.range' s.firstEpisode (totalEpisodes + 1 - s.firstEpisode)

end TvRow

/-! ## The handlers -/

namespace ProgressHandler

/-- A step of `handle_media_episode_transferred`.  `fault` says that the backend of the lock is
down, and when the subscription is finalised, that the lock of that is held. -/
def nextTransferred (downloaded : List ℕ) (totalEpisodes place : ℕ) (fault : Bool) (row : TvRow)
    (lock : Option LockHolder) : ProgressPhase → TvRow × Option LockHolder × ProgressPhase
  | .delivered =>
    if row.state = none ∨ downloaded = [] then (row, lock, .returned) else (row, lock, .found)
  | .found =>
    if fault then (row, lock, .admitted false)
    else if lock = none then (row, some (.handler place), .admitted true)
    else (row, lock, .returned)
  | .admitted holding =>
    if row.stored ≠ [] then
      (row, lock, .computed holding (sortedSet (row.stored.filter (· ∉ downloaded))))
    else if totalEpisodes = 0 then (row, lock, .leaving holding)
    else (row, lock, .ranging holding)
  | .ranging holding =>
    (row, lock, .computed holding (sortedSet ((row.initial totalEpisodes).filter (· ∉ downloaded))))
  | .computed holding lack =>
    if lack = [] then (if fault then row else row.finalise, lock, .leaving holding)
    else if row.state = some .completed then (row, lock, .writing holding lack)
    else (row, lock, .marking holding lack)
  | .marking holding lack => (row.writeState .running, lock, .writing holding lack)
  | .writing holding lack => (row.writeLack lack, lock, .leaving holding)
  | .leaving holding =>
    (row, if holding ∧ lock = some (.handler place) then none else lock, .returned)
  | .returned => (row, lock, .returned)

/-- A step of the handler of `TRANSFER_FAIL`, which takes no lock. -/
def nextFailed (failedEps : List ℕ) (row : TvRow) (lock : Option LockHolder) :
    ProgressPhase → TvRow × Option LockHolder × ProgressPhase
  | .delivered => if row.state = none then (row, lock, .returned) else (row, lock, .found)
  | .found =>
    (row.writeState .running, lock, if failedEps = [] then .returned else .admitted false)
  | .admitted holding => (row, lock, .writing holding (sortedSet (row.stored ++ failedEps)))
  | .writing holding lack => (row.writeLack lack, lock, .leaving holding)
  | .leaving _ => (row, lock, .returned)
  | phase => (row, lock, phase)

/-- A step of a handler. -/
def next (x : ProgressHandler) (place : ℕ) (fault : Bool) (row : TvRow) (lock : Option LockHolder) :
    TvRow × Option LockHolder × ProgressPhase :=
  match x.event with
  | .transferred downloaded totalEpisodes =>
    nextTransferred downloaded totalEpisodes place fault row lock x.phase
  | .failed failedEps => nextFailed failedEps row lock x.phase

theorem next_transferred {x : ProgressHandler} {place : ℕ} {fault : Bool} {row : TvRow}
    {lock : Option LockHolder} {downloaded : List ℕ} {totalEpisodes : ℕ}
    (h : x.event = .transferred downloaded totalEpisodes) : x.next place fault row lock =
      nextTransferred downloaded totalEpisodes place fault row lock x.phase := by
  rw [next, h]

theorem next_failed {x : ProgressHandler} {place : ℕ} {fault : Bool} {row : TvRow}
    {lock : Option LockHolder} {failedEps : List ℕ} (h : x.event = .failed failedEps) :
    x.next place fault row lock = nextFailed failedEps row lock x.phase := by
  rw [next, h]

end ProgressHandler

/-! ## The whole -/

/-- A step of the whole. -/
inductive ProgressMove
  | deliver (event : ProgressEvent)
  | advance (place : ℕ) (fault : Bool)
  /-- The time of the lock runs out. -/
  | expire
  /-- Another process takes the lock, and gives it back. -/
  | lockElsewhere
  | unlockElsewhere
  deriving DecidableEq, Repr

namespace ProgressState

variable (s : ProgressState)

/-- A handler takes its next step. -/
def advance (place : ℕ) (fault : Bool) : ProgressState :=
  match s.handlers[place]? with
  | none => s
  | some x =>
    let (row, lock, phase) := x.next place fault s.row s.lock
    { row := row, lock := lock, handlers := s.handlers.set place { x with phase := phase } }

/-- A step of the whole. -/
def step : ProgressMove → ProgressState
  | .deliver event => { s with handlers := s.handlers ++ [{ event := event }] }
  | .advance place fault => s.advance place fault
  | .expire => { s with lock := none }
  | .lockElsewhere => if s.lock = none then { s with lock := some .other } else s
  | .unlockElsewhere => if s.lock = some .other then { s with lock := none } else s

/-- The steps of a handler that nothing comes between. -/
def alone (event : ProgressEvent) : List ProgressMove :=
  .deliver event :: List.replicate 8 (.advance 0 false)

end ProgressState

/-- What the consumer of the list reads. -/
theorem reads_transferred {row : TvRow} {downloaded : List ℕ} {totalEpisodes : ℕ}
    (hrow : row.state ≠ none) (hne : downloaded ≠ []) :
    (Consumer.transferred downloaded totalEpisodes).reads row =
      some (if row.stored = [] then row.initial totalEpisodes else row.stored) := by
  have hinitial : row.initial totalEpisodes =
      List.range' row.start (totalEpisodes + 1 - row.start) := by
    simp [TvRow.initial, TvRow.firstEpisode, hrow]
  rw [Consumer.reads, if_neg hne, hinitial, TvRow.stored]
  rcases row.episodes with _ | _ | ⟨e, es⟩ <;> rfl

open ProgressHandler in
theorem ProgressState.step_single {event : ProgressEvent} {phase : ProgressPhase} {row : TvRow}
    {lock : Option LockHolder} :
    ProgressState.step ⟨row, lock, [⟨event, phase⟩]⟩ (.advance 0 false) =
      let r := next ⟨event, phase⟩ 0 false row lock
      ⟨r.1, r.2.1, [⟨event, r.2.2⟩]⟩ := rfl

/-- What a handler that runs alone does once it knows what is lacking. -/
theorem ProgressState.alone_computed {row : TvRow} (hrow : row.state ≠ none) (downloaded : List ℕ)
    (totalEpisodes : ℕ) (lack : List ℕ) :
    (List.replicate 4 (ProgressMove.advance 0 false)).foldl step
      ⟨row, some (.handler 0), [⟨.transferred downloaded totalEpisodes, .computed true lack⟩]⟩ =
        { row :=
            if lack = [] then row.finish
            else if row.state = some .completed then row.updateLack lack
            else (row.updateState .running).updateLack lack
          handlers := [⟨.transferred downloaded totalEpisodes, .returned⟩] } := by
  by_cases hlack : lack = []
  · simp [List.replicate, step_single, ProgressHandler.next, ProgressHandler.nextTransferred, hlack,
      TvRow.finalise, hrow]
  · by_cases hstate : row.state = some .completed
    · simp [List.replicate, step_single, ProgressHandler.next, ProgressHandler.nextTransferred,
        hlack, hstate, TvRow.writeLack]
    · simp [List.replicate, step_single, ProgressHandler.next, ProgressHandler.nextTransferred,
        hlack, hstate, TvRow.writeLack, TvRow.writeState, TvRow.updateState, hrow]

/-- A handler that runs alone does what the consumer of the list does. -/
theorem ProgressState.alone_eq_run {row : TvRow} (hrow : row.state ≠ none) (downloaded : List ℕ)
    (totalEpisodes : ℕ) :
    (alone (.transferred downloaded totalEpisodes)).foldl step { row := row } =
      { row := Consumer.run row (.transferred downloaded totalEpisodes)
        handlers := [⟨.transferred downloaded totalEpisodes, .returned⟩] } := by
  have hdeliver : step { row := row } (.deliver (.transferred downloaded totalEpisodes)) =
      ⟨row, none, [⟨.transferred downloaded totalEpisodes, .delivered⟩]⟩ := rfl
  simp only [alone, List.foldl_cons, hdeliver, List.replicate, List.foldl_nil]
  by_cases hnone : downloaded = []
  · simp [step_single, ProgressHandler.next, ProgressHandler.nextTransferred, hnone,
      Consumer.run, Consumer.reads, hrow]
  · have hadmitted : step (step ⟨row, none, [⟨.transferred downloaded totalEpisodes, .delivered⟩]⟩
        (.advance 0 false)) (.advance 0 false) =
          ⟨row, some (.handler 0), [⟨.transferred downloaded totalEpisodes, .admitted true⟩]⟩ := by
      simp [step_single, ProgressHandler.next, ProgressHandler.nextTransferred, hrow, hnone]
    have hcomputed := alone_computed hrow downloaded totalEpisodes
    simp only [List.replicate, List.foldl_cons, List.foldl_nil] at hcomputed
    rw [hadmitted, Consumer.run, if_neg hrow, reads_transferred hrow hnone]
    by_cases hstored : row.stored = []
    · by_cases htotal : totalEpisodes = 0
      · have hinitial : row.initial 0 = [] := by
          have hpos := @TvRow.start_pos row
          simp only [TvRow.initial, TvRow.firstEpisode, hrow, if_false, List.range'_eq_nil_iff]
          omega
        simp [step_single, ProgressHandler.next, ProgressHandler.nextTransferred, hstored, htotal,
          hinitial, Consumer.act]
      · have hread : step (step ⟨row, some (.handler 0),
            [⟨.transferred downloaded totalEpisodes, .admitted true⟩]⟩ (.advance 0 false))
              (.advance 0 false) = ⟨row, some (.handler 0), [⟨.transferred downloaded totalEpisodes,
                .computed true (sortedSet ((row.initial totalEpisodes).filter (· ∉ downloaded)))⟩]⟩ := by
          simp [step_single, ProgressHandler.next, ProgressHandler.nextTransferred, hstored, htotal]
        rw [hread, hcomputed]
        simp [Consumer.act, hstored, htotal]
    · have hread : step ⟨row, some (.handler 0),
          [⟨.transferred downloaded totalEpisodes, .admitted true⟩]⟩ (.advance 0 false) =
            ⟨row, some (.handler 0), [⟨.transferred downloaded totalEpisodes,
              .computed true (sortedSet (row.stored.filter (· ∉ downloaded)))⟩]⟩ := by
        simp [step_single, ProgressHandler.next, ProgressHandler.nextTransferred, hstored]
      rw [hread, hcomputed]
      simp [step_single, ProgressHandler.next, ProgressHandler.nextTransferred, Consumer.act, hstored]

/-- The second of two lacking episodes was transferred. -/
theorem ProgressState.alone_eq_run_second :
    (alone (.transferred [2] 2)).foldl step { row := { total := 2, lack := 2 } } =
      { row := Consumer.run { total := 2, lack := 2 } (.transferred [2] 2)
        handlers := [⟨.transferred [2] 2, .returned⟩] } :=
  alone_eq_run (by decide) [2] 2

end WolfNas
