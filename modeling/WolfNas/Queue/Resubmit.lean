import WolfNas.Queue.Memory

/-!
# Submitting again

Downloads, transfers and scrapes go through a queue under the key of their resource.  Where the task
of that key has failed, the services submit once more, under a key made of the first one and the id
of the failed task.  The reservation of the first key stays with the first task, so every later
retry makes the same second key, and finds the task of the first retry there.

## Main definitions

* `retryKey` — the key of a retry.
* `MemoryQueue.resubmit` — the two tries that the services share.
* `DownloadQueueService.submit`, `TransferQueueService.submit`, `ScrapeQueueService.enqueue` — the
  services.
* `MemoryQueue.AllFailed` — all tasks of a resource have ended in a failure.
* `MemoryQueue.Enqueues` — there is a new task in the queue.
* `Submission.Admitted` — the condition on a submission.

## Main results

* `MemoryQueue.enqueues_enqueue_iff` — when an `enqueue` makes a task.
* `MemoryQueue.enqueues_resubmit_iff` — when two tries make one.
* `Submission.enqueues_iff` — when a submission makes one.
* `Submission.never_swallowed_iff` — when no submission of a run is swallowed.
-/

namespace WolfNas

open Text

/-- The task has ended in a failure. -/
def QueueTask.hasFailed {J : Type} (t : QueueTask J) : Bool :=
  t.status.terminal && t.status ≠ .succeeded

/-- The key of a retry. -/
def retryKey (dedupKey id : Text) : Text := dedupKey ++ of ":retry:" ++ id

/-- What two tries leave: the queue, whether there was a second try, and the object; none where it
raised. -/
structure Resubmitted (J : Type) where
  queue : MemoryQueue J
  retried : Bool
  task : Option ℕ

variable {J : Type} (env : MemoryQueueSettings)

/-- A try, and another one under the key of the retry where the task that is found asks for it. -/
def MemoryQueue.resubmit (q : MemoryQueue J) (now : ℚ) (args : EnqueueArgs J)
    (again : QueueTask J → Bool) : Resubmitted J :=
  match q.enqueue env now args with
  | (q, none) => ⟨q, false, none⟩
  | (q, some k) =>
    match q.objects[k]? with
    | none => ⟨q, false, some k⟩
    | some t =>
      if again t then
        let second := q.enqueue env now { args with dedupKey := retryKey args.dedupKey t.id }
        ⟨second.1, true, second.2⟩
      else ⟨q, false, some k⟩

/-! ## The services -/

/-- What a download leaves: the queue, the task that is returned, none where it raises, and whether
the row of the history stays. -/
structure DownloadSubmitted (J : Type) where
  queue : MemoryQueue J
  task : Option ℕ
  historyKept : Bool

/-- A download asks again where another task has failed. -/
def DownloadQueueService.again (args : EnqueueArgs J) (t : QueueTask J) : Bool :=
  t.id ≠ args.id && t.hasFailed

/-- `DownloadQueueService.submit`, once the row of the history is written. -/
def DownloadQueueService.submit (q : MemoryQueue J) (now : ℚ) (args : EnqueueArgs J) :
    DownloadSubmitted J :=
  let r := q.resubmit env now args (DownloadQueueService.again args)
  match r.task with
  | none => ⟨r.queue, none, r.retried⟩
  | some k => ⟨r.queue, some k, r.queue.objects[k]?.any (·.id = args.id)⟩

/-- `TransferQueueService.submit`: the queue, and whether the transfer is taken care of. -/
def TransferQueueService.submit (q : MemoryQueue J) (now : ℚ) (args : EnqueueArgs J)
    (libraryDone : Bool) : MemoryQueue J × Bool :=
  if libraryDone then (q, true)
  else
    let r := q.resubmit env now args QueueTask.hasFailed
    match r.task.bind (r.queue.objects[·]?) with
    | none => (r.queue, false)
    | some t => (r.queue, !t.status.terminal || (!r.retried && t.status = .succeeded))

/-- `ScrapeQueueService._enqueue`: the queue, and the task; none where the caller goes on without
one. -/
def ScrapeQueueService.enqueue (q : MemoryQueue J) (now : ℚ) (args : EnqueueArgs J) :
    MemoryQueue J × Option ℕ :=
  let r := q.resubmit env now args QueueTask.hasFailed
  match r.task.bind (r.queue.objects[·]?) with
  | none => (r.queue, none)
  | some t => (r.queue, if r.retried && t.status.terminal then none else r.task)

/-- A submission. -/
inductive Submission (J : Type)
  | download (args : EnqueueArgs J)
  /-- A transfer, of a work that is in the library or not. -/
  | transfer (args : EnqueueArgs J) (libraryDone : Bool)
  | scrape (args : EnqueueArgs J)

namespace Submission

/-- What the task is made of. -/
def args : Submission J → EnqueueArgs J
  | download args | transfer args _ | scrape args => args

/-- The queue after a submission. -/
def submit (s : Submission J) (q : MemoryQueue J) (now : ℚ) : MemoryQueue J :=
  match s with
  | download args => (DownloadQueueService.submit env q now args).queue
  | transfer args libraryDone => (TransferQueueService.submit env q now args libraryDone).1
  | scrape args => (ScrapeQueueService.enqueue env q now args).1

end Submission

/-! ## A new task -/

namespace MemoryQueue

variable {q : MemoryQueue J} {now : ℚ} {args : EnqueueArgs J}

/-- There is one new task; it is waiting, and among those that are ready. -/
def Enqueues (q q' : MemoryQueue J) : Prop :=
  ∃ t, q'.objects = q.objects ++ [t] ∧ t.status = .queued ∧
    q'.tasks t.id = some q.objects.length ∧ ∃ e ∈ q'.ready, e.id = t.id

theorem not_enqueues_of_objects {q' : MemoryQueue J} (h : q'.objects = q.objects) :
    ¬Enqueues q q' := by
  rintro ⟨t, ht, _⟩
  have hlength := congrArg List.length (h.symm.trans ht)
  simp at hlength

theorem objects_add : (q.add env now args).objects = q.objects ++
    [QueueTask.create env.queueName args.taskType args.payload args.dedupKey
      (args.priority.getD env.priority) (args.maxAttempts.getD (max 1 env.maxAttempts)) args.id
      now] := by
  simp only [add, push, objects_rememberDedup]

theorem tasks_rememberDedup (t : QueueTask J) :
    (q.rememberDedup env now t).tasks = q.tasks := by
  unfold rememberDedup
  dsimp only
  split_ifs <;> rfl

theorem enqueues_add : Enqueues q (q.add env now args) := by
  refine ⟨_, objects_add env, rfl, ?_, ?_⟩
  · simp [add, push, tasks_rememberDedup, QueueTask.create]
  · simp [add, push, QueueTask.create]

theorem ready_existing (key : Text) : (q.existing now key).2.ready = q.ready := by
  unfold existing findDedup
  split_ifs
  · rfl
  · split
    · rfl
    · dsimp only
      split_ifs
      · rfl
      · split <;> rfl

/-- A task that is found leaves the queue as it is. -/
theorem existing_of_some {key : Text} {k : ℕ} (h : (q.existing now key).1 = some k) :
    (q.existing now key).2 = q := by
  by_cases hkey : key = []
  · simp [existing, hkey] at h
  · rw [existing, if_neg hkey] at h ⊢
    unfold findDedup at h ⊢
    cases hreserved : q.dedup key with
    | none => simp [hreserved] at h
    | some reserved =>
      obtain ⟨id, expires⟩ := reserved
      simp only [hreserved] at h ⊢
      split_ifs at h ⊢
      cases htask : q.tasks id with
      | none => simp [htask] at h
      | some k' => simp

/-- The queue takes new tasks. -/
def Accepts (q : MemoryQueue J) : Prop := q.closed = false ∧ q.ready.length < max 1 env.maxsize

/-- **When an `enqueue` makes a task**: the queue takes it, and none is found under its key. -/
theorem enqueues_enqueue_iff :
    Enqueues q (q.enqueue env now args).1 ↔
      q.Accepts env ∧ (q.existing now args.dedupKey).1 = none := by
  have hobjects : (q.existing now args.dedupKey).2.objects = q.objects :=
    objects_existing args.dedupKey
  have hready : (q.existing now args.dedupKey).2.ready = q.ready := ready_existing args.dedupKey
  unfold enqueue Accepts
  by_cases hclosed : q.closed = true
  · simp [hclosed, not_enqueues_of_objects]
  · rw [if_neg hclosed]
    rcases hfound : q.existing now args.dedupKey with ⟨found, q'⟩
    rw [hfound] at hobjects hready
    have hlength : q'.ready.length = q.ready.length := congrArg List.length hready
    cases found with
    | some k => simpa using not_enqueues_of_objects hobjects
    | none =>
      simp only [Bool.not_eq_true] at hclosed
      simp only [hclosed, true_and, and_true]
      by_cases hfull : max 1 env.maxsize ≤ q'.ready.length
      · have hnot : ¬q.ready.length < max 1 env.maxsize := by omega
        simp only [if_pos hfull, hnot, iff_false]
        exact not_enqueues_of_objects hobjects
      · have hlt : q.ready.length < max 1 env.maxsize := by omega
        simp only [if_neg hfull, hlt, iff_true]
        have hadd : Enqueues q' (q'.add env now args) := enqueues_add env
        rwa [Enqueues, hobjects] at hadd

/-- What is found is what the `enqueue` answers. -/
theorem enqueue_of_found {k : ℕ} (hopen : q.closed = false)
    (h : (q.existing now args.dedupKey).1 = some k) : q.enqueue env now args = (q, some k) := by
  have hsame := existing_of_some h
  rw [enqueue, hopen, if_neg Bool.false_ne_true]
  rcases hfound : q.existing now args.dedupKey with ⟨found, q'⟩
  rw [hfound] at h hsame
  obtain rfl : found = some k := h
  obtain rfl : q' = q := hsame
  rfl

/-- What an `enqueue` makes is waiting. -/
theorem status_of_enqueue {q' : MemoryQueue J} {k : ℕ} {t : QueueTask J}
    (hfound : (q.existing now args.dedupKey).1 = none)
    (h : q.enqueue env now args = (q', some k)) (ht : q'.objects[k]? = some t) :
    t.status = .queued := by
  unfold enqueue at h
  by_cases hclosed : q.closed = true
  · simp [hclosed] at h
  · rw [if_neg hclosed] at h
    rcases hexisting : q.existing now args.dedupKey with ⟨found, q₁⟩
    rw [hexisting] at hfound
    obtain rfl : found = none := hfound
    simp only [hexisting] at h
    split_ifs at h with hfull
    · simp at h
    · simp only [Prod.mk.injEq, Option.some.injEq] at h
      obtain ⟨rfl, rfl⟩ := h
      rw [objects_add, List.getElem?_concat_length] at ht
      obtain rfl := Option.some.inj ht
      rfl

/-- **When two tries make a task**: the queue takes it, and none is found under its key, or the one
that is found asks for a retry and none is found under the key of the retry. -/
theorem enqueues_resubmit_iff {again : QueueTask J → Bool}
    (hagain : ∀ t, t.status = .queued → again t = false) :
    Enqueues q (q.resubmit env now args again).queue ↔ q.Accepts env ∧
      ((q.existing now args.dedupKey).1 = none ∨
        ∃ k t, (q.existing now args.dedupKey).1 = some k ∧ q.objects[k]? = some t ∧
          again t = true ∧ (q.existing now (retryKey args.dedupKey t.id)).1 = none) := by
  by_cases hopen : q.closed = false
  · cases hfound : (q.existing now args.dedupKey).1 with
    | some k =>
      have hfirst := enqueue_of_found env hopen hfound
      cases hobject : q.objects[k]? with
      | none => simp [resubmit, hfirst, hobject, not_enqueues_of_objects]
      | some t =>
        cases hretry : again t with
        | false => simp [resubmit, hfirst, hobject, hretry, not_enqueues_of_objects]
        | true => simp [resubmit, hfirst, hobject, hretry, enqueues_enqueue_iff]
    | none =>
      rcases hfirst : q.enqueue env now args with ⟨q', task⟩
      have hqueue : (q.resubmit env now args again).queue = q' := by
        cases task with
        | none => simp [resubmit, hfirst]
        | some k =>
          cases hobject : q'.objects[k]? with
          | none => simp [resubmit, hfirst, hobject]
          | some t =>
            have hqueued := status_of_enqueue env hfound hfirst hobject
            simp [resubmit, hfirst, hobject, hagain t hqueued]
      have henqueue : Enqueues q q' ↔ q.Accepts env ∧ (q.existing now args.dedupKey).1 = none := by
        rw [← enqueues_enqueue_iff, hfirst]
      rw [hqueue, henqueue, hfound]
      simp
  · have hclosed : q.closed = true := by simpa using hopen
    have hnone : q.enqueue env now args = (q, none) := by simp [enqueue, hclosed]
    simp [resubmit, hnone, not_enqueues_of_objects, Accepts, hclosed]

/-! ## The tasks of a resource -/

/-- A key of a resource: its own, or that of a retry. -/
def IsKeyOf (key dedupKey : Text) : Prop := key = dedupKey ∨ ∃ id, key = retryKey dedupKey id

/-- All tasks of a resource have ended in a failure: those made under one of its keys, and those
that one of them is reserved for. -/
def AllFailed (q : MemoryQueue J) (now : ℚ) (dedupKey : Text) : Prop :=
  ∀ k t, q.objects[k]? = some t →
    (IsKeyOf t.dedupKey dedupKey ∨ ∃ key, IsKeyOf key dedupKey ∧ (q.existing now key).1 = some k) →
    t.hasFailed = true

end MemoryQueue

/-! ## Submissions -/

namespace Submission

open MemoryQueue

variable {q : MemoryQueue J} {now : ℚ}

/-- The key of the resource is free, or the task under it is an older one and the key of its retry
is free. -/
def KeyFree (s : Submission J) (q : MemoryQueue J) (now : ℚ) : Prop :=
  (q.existing now s.args.dedupKey).1 = none ∨
    ∃ k t, (q.existing now s.args.dedupKey).1 = some k ∧ q.objects[k]? = some t ∧
      (q.existing now (retryKey s.args.dedupKey t.id)).1 = none ∧
      ∀ args, s = download args → t.id ≠ args.id

/-- **The condition**: the queue takes new tasks, a key is free, and what is to be transferred is
not in the library. -/
def Admitted (s : Submission J) (q : MemoryQueue J) (now : ℚ) : Prop :=
  q.Accepts env ∧ s.KeyFree q now ∧ ∀ args, s ≠ transfer args true

/-- When two tries make a task, where all tasks of the resource have failed and a failed one asks
for a retry under the condition `P`. -/
theorem enqueues_resubmit_of_allFailed {args : EnqueueArgs J} {again : QueueTask J → Bool}
    {P : QueueTask J → Prop} (hfailed : q.AllFailed now args.dedupKey)
    (hagain : ∀ t, again t = true ↔ t.hasFailed = true ∧ P t) :
    Enqueues q (q.resubmit env now args again).queue ↔ q.Accepts env ∧
      ((q.existing now args.dedupKey).1 = none ∨
        ∃ k t, (q.existing now args.dedupKey).1 = some k ∧ q.objects[k]? = some t ∧
          (q.existing now (retryKey args.dedupKey t.id)).1 = none ∧ P t) := by
  have hqueued : ∀ t : QueueTask J, t.status = .queued → again t = false := by
    intro t ht
    rw [Bool.eq_false_iff]
    intro hretry
    have h := ((hagain t).mp hretry).1
    simp [QueueTask.hasFailed, ht, TaskStatus.terminal] at h
  rw [enqueues_resubmit_iff env hqueued]
  refine and_congr_right fun _ => or_congr_right ?_
  constructor
  · rintro ⟨k, t, hfound, hobject, hretry, hfree⟩
    exact ⟨k, t, hfound, hobject, hfree, ((hagain t).mp hretry).2⟩
  · rintro ⟨k, t, hfound, hobject, hfree, hnew⟩
    have hended := hfailed k t hobject (.inr ⟨args.dedupKey, .inl rfl, hfound⟩)
    exact ⟨k, t, hfound, hobject, (hagain t).mpr ⟨hended, hnew⟩, hfree⟩

/-- **When a submission makes a task**, where all tasks of its resource have failed. -/
theorem enqueues_iff (s : Submission J) (hfailed : q.AllFailed now s.args.dedupKey) :
    Enqueues q (s.submit env q now) ↔ s.Admitted env q now := by
  have htwice : ∀ t : QueueTask J, t.hasFailed = true ↔ t.hasFailed = true ∧ True := by simp
  cases s with
  | download args =>
    have hfailed : q.AllFailed now args.dedupKey := hfailed
    have hqueue : (download args).submit env q now =
        (q.resubmit env now args (DownloadQueueService.again args)).queue := by
      simp only [submit, DownloadQueueService.submit]
      split <;> rfl
    have hagain : ∀ t, DownloadQueueService.again args t = true ↔
        t.hasFailed = true ∧ ∀ args', download args = download args' → t.id ≠ args'.id := by
      intro t
      simp [DownloadQueueService.again, and_comm]
    rw [hqueue, enqueues_resubmit_of_allFailed env hfailed hagain]
    simp [Admitted, KeyFree, Submission.args]
  | transfer args libraryDone =>
    cases libraryDone with
    | true =>
      have hqueue : (transfer args true).submit env q now = q := by
        simp [submit, TransferQueueService.submit]
      rw [hqueue]
      simp [not_enqueues_of_objects, Admitted]
    | false =>
      have hfailed : q.AllFailed now args.dedupKey := hfailed
      have hqueue : (transfer args false).submit env q now =
          (q.resubmit env now args QueueTask.hasFailed).queue := by
        simp only [submit, TransferQueueService.submit, Bool.false_eq_true, if_false]
        split <;> rfl
      rw [hqueue, enqueues_resubmit_of_allFailed env hfailed htwice]
      simp [Admitted, KeyFree, Submission.args]
  | scrape args =>
    have hfailed : q.AllFailed now args.dedupKey := hfailed
    have hqueue : (scrape args).submit env q now =
        (q.resubmit env now args QueueTask.hasFailed).queue := by
      simp only [submit, ScrapeQueueService.enqueue]
      split <;> rfl
    rw [hqueue, enqueues_resubmit_of_allFailed env hfailed htwice]
    simp [Admitted, KeyFree, Submission.args]

/-! ## Runs -/

/-- A step of a run: a submission, or an operation on the queue. -/
inductive Move (J : Type)
  | submit (s : Submission J)
  | op (op : MemoryOp J)

/-- One step, at its time. -/
def step (q : MemoryQueue J) (move : ℚ × Move J) : MemoryQueue J :=
  match move.2 with
  | .submit s => s.submit env q move.1
  | .op op => q.step env (move.1, op)

/-- **No submission of a run is swallowed**: each one whose resource has only failed tasks makes a
new task, exactly if the condition holds of each of them. -/
theorem never_swallowed_iff (start : MemoryQueue J) (moves : List (ℚ × Move J)) :
    Run.Along (step env) (fun q move => ∀ s, move.2 = .submit s →
        q.AllFailed move.1 s.args.dedupKey → Enqueues q (step env q move)) start moves ↔
      Run.Along (step env) (fun q move => ∀ s, move.2 = .submit s →
        q.AllFailed move.1 s.args.dedupKey → s.Admitted env q move.1) start moves := by
  refine Run.along_iff ?_
  rintro q ⟨now, move⟩
  refine forall_congr' ?_
  intro s
  refine forall_congr' ?_
  rintro rfl
  refine forall_congr' ?_
  intro hfailed
  exact s.enqueues_iff env hfailed

/-- A download of one resource under an id. -/
def sameDownload (id : Text) : Move Unit :=
  .submit (.download
    { taskType := of "download.add", payload := (), dedupKey := of "d", id })

/-- A download and its retry fail, and the resource is asked for once more. -/
def thirdDownload : List (ℚ × Move Unit) :=
  [(0, sameDownload (of "1")), (1, .op (.fail (of "1") (of "no seeds") false)),
    (2, sameDownload (of "2")), (3, .op (.fail (of "2") (of "no seeds") false)),
    (4, sameDownload (of "3"))]

/-- The third download is swallowed. -/
theorem thirdDownload_swallowed :
    ¬∀ (env : MemoryQueueSettings) (start : MemoryQueue Unit) (moves : List (ℚ × Move Unit)),
      Run.Along (step env) (fun q move => ∀ s, move.2 = .submit s →
        q.AllFailed move.1 s.args.dedupKey → Enqueues q (step env q move)) start moves := by
  intro h
  obtain ⟨_, _, _, _, hthird, _⟩ := h plainQueue {} thirdDownload
  have hall : (Run.stateAt (step plainQueue) {} thirdDownload 4).objects.all QueueTask.hasFailed =
      true := by decide +kernel
  have hfailed : (Run.stateAt (step plainQueue) {} thirdDownload 4).AllFailed 4 (of "d") := by
    intro k t ht _
    exact List.all_eq_true.mp hall t (List.mem_of_getElem? ht)
  obtain ⟨t, hobjects, _⟩ := hthird _ rfl hfailed
  have hlength := congrArg List.length hobjects
  rw [List.length_append, List.length_singleton] at hlength
  revert hlength
  decide +kernel

end Submission

end WolfNas
