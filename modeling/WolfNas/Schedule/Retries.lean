import Mathlib.Algebra.Order.Field.Rat
import Mathlib.Tactic.NormNum
import WolfNas.Lib.Run
import WolfNas.Lib.Text

/-!
# Retries of a scheduled job

A run of a job that fails is retried by a job of its own that runs once.  How many retries there
were is kept in a cache, under the id of the job whose run failed: of the job itself where a
regular run fails, and of the retry where a retry fails, which is gone from the scheduler by then.
So a retry that fails is not followed by another, and one that succeeds leaves the count of the
job.

## Main definitions

* `SchedulerJob`, `RetryState`, `RetryEvent` — the jobs of a scheduler, its runs and the counts.
* `RetryState.retryFailedJob` — `_retry_failed_job`, with the job that it schedules.
* `RetryState.step` — what happens to the scheduler, with `_job_event_listener`.
* `RetryState.KeepsChain` — the retries of a failed run go on, and end, as they should.
* `RetryState.Counted` — the count is that of the chain.

## Main results

* `RetryState.continues_iff` — when a failed run is retried as it should be.
* `RetryState.keepsChains_iff` — for every sequence of runs.
-/

namespace WolfNas

open Text

/-- `MAX_RETRY_COUNT`. -/
def maxRetryCount : ℕ := 3

/-- `RETRY_DELAY`, in seconds. -/
def retryDelay : ℚ := 60

/-- How long a count is kept, in seconds. -/
def retryCountTtl : ℚ := 3600

/-- A job of the scheduler: what it calls, whether it runs once, and when.  For the proofs it
carries the job that its chain of retries started from, and its number in the chain. -/
structure SchedulerJob (α : Type) where
  id : Text
  call : α
  oneShot : Bool := false
  due : ℚ := 0
  origin : Text := id
  position : ℕ := 0

/-- The jobs that wait, the runs that have not ended, and the cache of the counts. -/
structure RetryState (α : Type) where
  now : ℚ
  jobs : List (SchedulerJob α)
  running : List (SchedulerJob α) := []
  counts : Text → Option (ℕ × ℚ) := fun _ => none

/-- What happens: time passes, the cache loses a count, a job is handed to the executor or missed,
and a run ends. -/
inductive RetryEvent
  | elapsed (seconds : ℚ)
  | forgotten (id : Text)
  | submitted (id : Text)
  | missed (id : Text)
  | executed (run : ℕ)
  | failed (run : ℕ)
  deriving DecidableEq, Repr

namespace RetryState

variable {α : Type} (s : RetryState α)

/-- `get_job`. -/
def getJob (id : Text) : Option (SchedulerJob α) := s.jobs.find? (·.id = id)

/-- `_get_retry_count`. -/
def getRetryCount (id : Text) : ℕ :=
  match s.counts id with
  | none => 0
  | some (count, expiry) => if s.now < expiry then count else 0

/-- `_set_retry_count`. -/
def setRetryCount (id : Text) (count : ℕ) : RetryState α :=
  { s with counts := Function.update s.counts id (some (count, s.now + retryCountTtl)) }

/-- `_clear_retry_count`. -/
def clearRetryCount (id : Text) : RetryState α :=
  { s with counts := Function.update s.counts id none }

/-- A job is scheduled, in place of one of its id. -/
def addJob (job : SchedulerJob α) : RetryState α :=
  { s with jobs := s.jobs.filter (·.id ≠ job.id) ++ [job] }

/-- `_retry_failed_job` after a run of a job, with what it schedules. -/
def retryFailedJob (run : SchedulerJob α) : RetryState α × Option (SchedulerJob α) :=
  match s.getJob run.id with
  | none => (s, none)
  | some job =>
    let retryCount := s.getRetryCount run.id
    if maxRetryCount ≤ retryCount then (s.clearRetryCount run.id, none)
    else
      let retry : SchedulerJob α :=
        { id := run.id ++ of "_retry_" ++ Text.ofNat (retryCount + 1)
          call := job.call
          oneShot := true
          due := s.now + retryDelay * 2 ^ retryCount
          origin := run.origin
          position := run.position + 1 }
      ((s.setRetryCount run.id (retryCount + 1)).addJob retry, some retry)

/-- A job that runs once leaves the scheduler. -/
def leave (job : SchedulerJob α) : RetryState α :=
  if job.oneShot then { s with jobs := s.jobs.filter (·.id ≠ job.id) } else s

/-- The job is due. -/
def isDue (job : SchedulerJob α) : Bool := !job.oneShot || decide (job.due ≤ s.now)

/-- One event, with `_job_event_listener`. -/
def step (s : RetryState α) : RetryEvent → RetryState α
  | .elapsed seconds => { s with now := s.now + max seconds 0 }
  | .forgotten id => s.clearRetryCount id
  | .submitted id => match s.getJob id with
    | none => s
    | some job =>
      if s.isDue job then { s.leave job with running := s.running ++ [job] } else s
  | .missed id => match s.getJob id with
    | none => s
    | some job => if s.isDue job then s.leave job else s
  | .executed run => match s.running[run]? with
    | none => s
    | some job => { s.clearRetryCount job.id with running := s.running.eraseIdx run }
  | .failed run => match s.running[run]? with
    | none => s
    | some job => { (s.retryFailedJob job).1 with running := s.running.eraseIdx run }

/-! ## The chain of retries -/

/-- After a run with `k` retries before it, the next one is scheduled: of the same call, with the
delay of the `k + 1`st. -/
def Continues (run : SchedulerJob α) : Prop :=
  ∃ retry, (s.retryFailedJob run).2 = some retry ∧ retry ∈ (s.retryFailedJob run).1.jobs ∧
    retry.call = run.call ∧ retry.due = s.now + retryDelay * 2 ^ run.position ∧
    retry.origin = run.origin ∧ retry.position = run.position + 1

/-- **The chain of a failed run goes on, and ends, as it should**: a run that fails is followed by
the next retry until there were enough; where they were, or where a retry succeeds, nothing is
scheduled any more and the count of the job is zero. -/
def KeepsChain (e : RetryEvent) : Prop :=
  match e with
  | .failed run => ∀ job, s.running[run]? = some job →
    if job.position < maxRetryCount then s.Continues job
    else (s.retryFailedJob job).2 = none ∧ (s.step e).getRetryCount job.origin = 0
  | .executed run => ∀ job, s.running[run]? = some job → job.position ≠ 0 →
    (s.step e).getRetryCount job.origin = 0
  | _ => True

/-- The job whose run fails is there, calls the same, and has the count of the retries before the
run; at the end of a chain, the count of the job that it started from is zero, or the one that is
cleared. -/
def Counted (e : RetryEvent) : Prop :=
  match e with
  | .failed run => ∀ job, s.running[run]? = some job →
    if job.position < maxRetryCount then
      (∃ there, s.getJob job.id = some there ∧ there.call = job.call) ∧
        s.getRetryCount job.id = job.position
    else
      (s.getJob job.id = none ∨ maxRetryCount ≤ s.getRetryCount job.id) ∧
        (s.getRetryCount job.origin = 0 ∨ s.getJob job.id ≠ none ∧ job.origin = job.id)
  | .executed run => ∀ job, s.running[run]? = some job → job.position ≠ 0 →
    s.getRetryCount job.origin = 0 ∨ job.origin = job.id
  | _ => True

variable {s} {run : SchedulerJob α} {x y : Text}

theorem getRetryCount_congr {t : RetryState α} (hnow : t.now = s.now) (hcounts : t.counts = s.counts) :
    t.getRetryCount x = s.getRetryCount x := by
  rw [getRetryCount, getRetryCount, hnow, hcounts]

theorem getRetryCount_clear :
    (s.clearRetryCount x).getRetryCount y = if y = x then 0 else s.getRetryCount y := by
  by_cases h : y = x
  · simp [getRetryCount, clearRetryCount, h]
  · have hcounts : (s.clearRetryCount x).counts y = s.counts y := Function.update_of_ne h _ _
    rw [if_neg h, getRetryCount, getRetryCount, hcounts]
    rfl

theorem getRetryCount_clear_eq_zero :
    (s.clearRetryCount x).getRetryCount y = 0 ↔ s.getRetryCount y = 0 ∨ y = x := by
  rw [getRetryCount_clear]
  split_ifs with h
  · simp [h]
  · simp [h]

/-- **A failed run is retried as it should be** exactly where its job is there, calls the same, and
has the count of the retries before it. -/
theorem continues_iff (h : run.position < maxRetryCount) : s.Continues run ↔
    (∃ there, s.getJob run.id = some there ∧ there.call = run.call) ∧
      s.getRetryCount run.id = run.position := by
  rw [Continues, retryFailedJob]
  cases hjob : s.getJob run.id with
  | none => simp
  | some there =>
    dsimp only
    by_cases hmax : maxRetryCount ≤ s.getRetryCount run.id
    · rw [if_pos hmax]
      have hne : s.getRetryCount run.id ≠ run.position := by omega
      simp [hne]
    · rw [if_neg hmax]
      have hdelay : s.now + retryDelay * 2 ^ s.getRetryCount run.id =
          s.now + retryDelay * 2 ^ run.position ↔ s.getRetryCount run.id = run.position := by
        have hpos : retryDelay ≠ 0 := by norm_num [retryDelay]
        rw [add_right_inj, mul_right_inj' hpos]
        exact (pow_right_injective₀ (by norm_num) (by norm_num)).eq_iff
      dsimp only
      simp only [Option.some.injEq, exists_eq_left', addJob, List.mem_append, List.mem_singleton,
        or_true, true_and, and_true, hdelay]

/-- **A failed run ends its chain as it should** exactly where its job is gone or had its retries,
and the count of the job is zero or the one that is cleared. -/
theorem ends_iff :
    (s.retryFailedJob run).2 = none ∧ (s.retryFailedJob run).1.getRetryCount x = 0 ↔
      (s.getJob run.id = none ∨ maxRetryCount ≤ s.getRetryCount run.id) ∧
        (s.getRetryCount x = 0 ∨ s.getJob run.id ≠ none ∧ x = run.id) := by
  rw [retryFailedJob]
  cases hjob : s.getJob run.id with
  | none => simp
  | some there =>
    dsimp only
    by_cases hmax : maxRetryCount ≤ s.getRetryCount run.id
    · rw [if_pos hmax]
      simp [hmax, getRetryCount_clear_eq_zero]
    · rw [if_neg hmax]
      simp [hmax]

/-- What a run leaves of the chain it belongs to is what the handling of its event leaves. -/
theorem keepsChain_iff {e : RetryEvent} : s.KeepsChain e ↔ s.Counted e := by
  cases e with
  | elapsed seconds | forgotten id | submitted id | missed id => exact Iff.rfl
  | executed run =>
    refine forall₃_congr fun job hjob _ => ?_
    have hafter : (s.step (.executed run)).getRetryCount job.origin =
        (s.clearRetryCount job.id).getRetryCount job.origin := by
      rw [step, hjob]
      exact getRetryCount_congr rfl rfl
    rw [hafter, getRetryCount_clear_eq_zero]
  | failed run =>
    refine forall₂_congr fun job hjob => ?_
    have hafter : (s.step (.failed run)).getRetryCount job.origin =
        (s.retryFailedJob job).1.getRetryCount job.origin := by
      rw [step, hjob]
      exact getRetryCount_congr rfl rfl
    rw [hafter]
    split_ifs with hposition
    · exact continues_iff hposition
    · exact ends_iff

/-- **For every sequence of runs**: each chain of retries goes on and ends as it should, exactly
where at each run that ends the count is that of its chain. -/
theorem keepsChains_iff (s : RetryState α) (events : List RetryEvent) :
    Run.Along step KeepsChain s events ↔ Run.Along step Counted s events :=
  Run.along_iff fun _ _ => keepsChain_iff

/-- A scheduler with one job. -/
def oneJob : RetryState Unit where
  now := 0
  jobs := [{ id := of "sync", call := () }]

/-- A regular run fails, and its retry does; or the retry goes through, and the next regular run
fails. -/
def retryFails : List RetryEvent :=
  [.submitted (of "sync"), .failed 0, .elapsed 60, .submitted (of "sync_retry_1"), .failed 0]

def retrySucceeds : List RetryEvent :=
  [.submitted (of "sync"), .failed 0, .elapsed 60, .submitted (of "sync_retry_1"), .executed 0,
    .submitted (of "sync"), .failed 0]

/-- No second retry follows the first one; and where that succeeds, the count of the job stays, so
the next retry is taken for the second. -/
theorem chain_breaks :
    ¬Run.Along step KeepsChain oneJob retryFails ∧
      (retryFails.foldl step oneJob).jobs.map (·.id) = [of "sync"] ∧
      ¬Run.Along step KeepsChain oneJob retrySucceeds ∧
      ((retrySucceeds.take 5).foldl step oneJob).getRetryCount (of "sync") = 1 ∧
      (retrySucceeds.foldl step oneJob).jobs.map (fun job => (job.id, job.due)) =
        [(of "sync", 0), (of "sync_retry_2", 60 + 120)] := by
  refine ⟨fun h => ?_, by decide +kernel, fun h => ?_, by decide +kernel, by decide +kernel⟩
  · have hkeeps : ((retryFails.take 4).foldl step oneJob).KeepsChain (.failed 0) := h.2.2.2.2.1
    have hrun : ((retryFails.take 4).foldl step oneJob).running[0]?.map (fun job =>
        (job.position, (((retryFails.take 4).foldl step oneJob).retryFailedJob job).2.isSome)) =
          some (1, false) := by decide +kernel
    obtain ⟨job, hjob, hfacts⟩ := Option.map_eq_some_iff.mp hrun
    obtain ⟨hposition, hnone⟩ := Prod.mk.inj hfacts
    have hcontinues := hkeeps job hjob
    rw [if_pos (by rw [hposition]; decide)] at hcontinues
    obtain ⟨retry, hretry, -⟩ := hcontinues
    rw [hretry] at hnone
    cases hnone
  · have hkeeps : ((retrySucceeds.take 4).foldl step oneJob).KeepsChain (.executed 0) :=
      h.2.2.2.2.1
    have hrun : ((retrySucceeds.take 4).foldl step oneJob).running[0]?.map (fun job =>
        (job.position, ((retrySucceeds.take 5).foldl step oneJob).getRetryCount job.origin)) =
          some (1, 1) := by decide +kernel
    obtain ⟨job, hjob, hfacts⟩ := Option.map_eq_some_iff.mp hrun
    obtain ⟨hposition, hcount⟩ := Prod.mk.inj hfacts
    have hzero : ((retrySucceeds.take 5).foldl step oneJob).getRetryCount job.origin = 0 :=
      hkeeps job hjob (by rw [hposition]; decide)
    rw [hcount] at hzero
    cases hzero

end RetryState

end WolfNas
