import WolfNas.Lib.Run
import WolfNas.Queue.Hash
import Mathlib.Data.List.Sort
import Mathlib.Logic.Function.Basic
import Mathlib.Algebra.Order.Ring.Rat

/-!
# The queue in memory

The queue keeps its tasks as objects that its callers share, and a heap of the ids that are
ready.  Every operation holds the queue's lock, so a run is a sequence of operations.

## Main definitions

* `MemoryQueue` — the objects, and the tables of a queue.
* `MemoryQueue.enqueue`, `MemoryQueue.claim`, `MemoryQueue.heartbeat`, `MemoryQueue.ack`,
  `MemoryQueue.fail`, `MemoryQueue.cancel` — the operations.
* `MemoryOp`, `MemoryQueue.step` — one operation of a run.
* `MemoryQueue.KeepsEnded` — a task that is over stays as it ended.
* `MemoryQueue.Timely` — the condition on an operation.

## Main results

* `MemoryQueue.claimFrom_spec` — what is claimed was not over.
* `MemoryQueue.ended_iff` — a task that is over never leaves its status, and is never claimed,
  exactly where every operation meets the condition.
-/

namespace WolfNas

open Text

/-- The settings of a queue in memory. -/
structure MemoryQueueSettings where
  queueName : Text
  maxsize : ℕ := 1000
  leaseSeconds : ℚ := 120
  maxAttempts : ℤ := 5
  dedupTtlSeconds : ℚ := 86400
  priority : ℤ := 0

/-- An entry of the heap. -/
structure ReadyEntry where
  priority : ℤ
  sequence : ℕ
  id : Text
  deriving DecidableEq, Repr

/-- The heap's order: by descending priority, then by sequence. -/
def ReadyEntry.le (a b : ReadyEntry) : Prop :=
  b.priority < a.priority ∨ (a.priority = b.priority ∧ a.sequence ≤ b.sequence)

instance : DecidableRel ReadyEntry.le := fun a b => by unfold ReadyEntry.le; infer_instance

/-- A queue in memory; tasks are objects, numbered in the order of their creation. -/
structure MemoryQueue (J : Type) where
  objects : List (QueueTask J) := []
  /-- `_ready`, with the next entry first. -/
  ready : List ReadyEntry := []
  sequence : ℕ := 0
  /-- `_tasks`: the object of an id. -/
  tasks : Text → Option ℕ := fun _ => none
  /-- `_dedup`: the id reserved for a key, and when it expires. -/
  dedup : Text → Option (Text × Option ℚ) := fun _ => none
  closed : Bool := false

/-- An operation, with the time at which it holds the lock. -/
inductive MemoryOp (J : Type)
  | enqueue (args : EnqueueArgs J)
  | claim (consumer : Text) (count : ℕ)
  | heartbeat (id : Text)
  | ack (id : Text) (result : Option J)
  | fail (id : Text) (error : Text) (retryable : Bool)
  | cancel (id : Text)
  | close

namespace MemoryQueue

variable {J : Type} (env : MemoryQueueSettings) (q : MemoryQueue J) (now : ℚ)

/-- The object of an id, where there is one. -/
def current (id : Text) : Option (ℕ × QueueTask J) :=
  (q.tasks id).bind fun k => q.objects[k]?.map fun t => (k, t)

/-- An object is written. -/
def write (k : ℕ) (t : QueueTask J) : MemoryQueue J :=
  { q with objects := q.objects.set k t }

/-- `_push`. -/
def push (t : QueueTask J) : MemoryQueue J :=
  { q with
    sequence := q.sequence + 1
    ready := q.ready.orderedInsert ReadyEntry.le ⟨t.priority, q.sequence + 1, t.id⟩ }

/-- `_find_dedup`: the object reserved for a key, and the queue without a stale reservation. -/
def findDedup (key : Text) : Option ℕ × MemoryQueue J :=
  match q.dedup key with
  | none => (none, q)
  | some (id, expires) =>
    let dropped := { q with dedup := Function.update q.dedup key none }
    if ∃ e ∈ expires, e ≤ now then (none, dropped)
    else match q.tasks id with
      | none => (none, dropped)
      | some k => (some k, q)

/-- `_remember_dedup`. -/
def rememberDedup (t : QueueTask J) : MemoryQueue J :=
  if t.dedupKey = [] then q
  else
    let expires := if env.dedupTtlSeconds ≤ 0 then none else some (now + env.dedupTtlSeconds)
    { q with dedup := Function.update q.dedup t.dedupKey (some (t.id, expires)) }

/-- `enqueue` of a new task. -/
def add (args : EnqueueArgs J) : MemoryQueue J :=
  let t := QueueTask.create env.queueName args.taskType args.payload args.dedupKey
    (args.priority.getD env.priority) (args.maxAttempts.getD (max 1 env.maxAttempts)) args.id now
  let stored := { q with
    objects := q.objects ++ [t]
    tasks := Function.update q.tasks t.id (some q.objects.length) }
  (stored.rememberDedup env now t).push t

/-- The live object for a key that may be empty. -/
def existing (key : Text) : Option ℕ × MemoryQueue J :=
  if key = [] then (none, q) else q.findDedup now key

/-- `enqueue`: the queue afterwards, and the task's object; none where it raises. -/
def enqueue (args : EnqueueArgs J) : MemoryQueue J × Option ℕ :=
  if q.closed then (q, none)
  else
    match q.existing now args.dedupKey with
    | (some k, q) => (q, some k)
    | (none, q) =>
      if max 1 env.maxsize ≤ q.ready.length then (q, none) else (q.add env now args, some q.objects.length)

/-- `claim`, once the lock is held: entries are popped until the count is reached. -/
def claimFrom (consumer : Text) : MemoryQueue J → ℕ → List ReadyEntry → MemoryQueue J × List ℕ
  | q, 0, rest => ({ q with ready := rest }, [])
  | q, _ + 1, [] => ({ q with ready := [] }, [])
  | q, n + 1, e :: rest =>
    match q.current e.id with
    | none => claimFrom consumer q (n + 1) rest
    | some (k, t) =>
      if t.status = .queued then
        let taken := { t with
          status := .running
          leaseOwner := consumer
          leaseUntil := now + max 1 env.leaseSeconds
          updatedAt := now }
        let r := claimFrom consumer (q.write k taken) n rest
        (r.1, k :: r.2)
      else claimFrom consumer q (n + 1) rest

/-- `claim`. -/
def claim (consumer : Text) (count : ℕ) : MemoryQueue J × List ℕ :=
  claimFrom env now consumer q (max 1 count) q.ready

/-- `heartbeat`. -/
def heartbeat (id : Text) : MemoryQueue J :=
  match q.current id with
  | none => q
  | some (k, t) =>
    if t.status = .running then
      q.write k { t with leaseUntil := now + max 1 env.leaseSeconds, updatedAt := now }
    else q

/-- `ack`. -/
def ack (id : Text) (result : Option J) : MemoryQueue J :=
  match q.current id with
  | none => q
  | some (k, t) =>
    q.write k
      { t with status := .succeeded, result, leaseOwner := [], leaseUntil := 0, updatedAt := now }

/-- The status that `fail` gives a task. -/
def failStatus (t : QueueTask J) (retryable : Bool) : TaskStatus :=
  if retryable then if t.attempts + 1 < t.maxAttempts then .queued else .dead else .failed

/-- `fail`. -/
def fail (id error : Text) (retryable : Bool) : MemoryQueue J :=
  match q.current id with
  | none => q
  | some (k, t) =>
    let t' := { t with
      attempts := t.attempts + 1
      lastError := error
      updatedAt := now
      status := failStatus t retryable }
    if failStatus t retryable = .queued then
      let t'' := { t' with leaseOwner := [], leaseUntil := 0 }
      (q.write k t'').push t''
    else q.write k t'

/-- `cancel`. -/
def cancel (id : Text) : MemoryQueue J :=
  match q.current id with
  | none => q
  | some (k, t) =>
    q.write k { t with status := .cancelled, leaseOwner := [], leaseUntil := 0, updatedAt := now }

/-- `close`. -/
def close : MemoryQueue J := { q with closed := true }

/-- One operation. -/
def step (q : MemoryQueue J) (move : ℚ × MemoryOp J) : MemoryQueue J :=
  match move.2 with
  | .enqueue args => (q.enqueue env move.1 args).1
  | .claim consumer count => (q.claim env move.1 consumer count).1
  | .heartbeat id => q.heartbeat env move.1 id
  | .ack id result => q.ack move.1 id result
  | .fail id error retryable => q.fail move.1 id error retryable
  | .cancel id => q.cancel move.1 id
  | .close => q.close

/-- The objects that an operation hands to a worker. -/
def claimed (q : MemoryQueue J) (move : ℚ × MemoryOp J) : List ℕ :=
  match move.2 with
  | .claim consumer count => (q.claim env move.1 consumer count).2
  | _ => []

/-! ## What is over stays over -/

/-- The task succeeded, is dead or was cancelled. -/
def isOver : TaskStatus → Bool
  | .succeeded | .dead | .cancelled => true
  | .queued | .running | .failed => false

/-- The object is a task that is over. -/
def Ended (q : MemoryQueue J) (k : ℕ) : Prop := ∃ t, q.objects[k]? = some t ∧ isOver t.status

/-- A task that is over in the first queue has the same status in the second. -/
def KeepsEnded (q q' : MemoryQueue J) : Prop :=
  ∀ (k : ℕ) (t : QueueTask J), q.objects[k]? = some t → isOver t.status →
    ∃ t' : QueueTask J, q'.objects[k]? = some t' ∧ t'.status = t.status

theorem keepsEnded_refl (q : MemoryQueue J) : KeepsEnded q q := fun _ t h _ => ⟨t, h, rfl⟩

theorem KeepsEnded.trans {q q' q'' : MemoryQueue J} (h : KeepsEnded q q') (h' : KeepsEnded q' q'') :
    KeepsEnded q q'' := by
  intro k t hk ht
  obtain ⟨t', hk', heq⟩ := h k t hk ht
  obtain ⟨t'', hk'', heq'⟩ := h' k t' hk' (heq ▸ ht)
  exact ⟨t'', hk'', heq'.trans heq⟩

theorem KeepsEnded.ended {q q' : MemoryQueue J} (h : KeepsEnded q q') {k : ℕ} (hk : q.Ended k) :
    q'.Ended k := by
  obtain ⟨t, ht, hover⟩ := hk
  obtain ⟨t', ht', heq⟩ := h k t ht hover
  exact ⟨t', ht', heq ▸ hover⟩

variable {env q now}

theorem keepsEnded_of_objects {q' : MemoryQueue J} (h : q'.objects = q.objects) :
    KeepsEnded q q' := fun _ t hk _ => ⟨t, h ▸ hk, rfl⟩

theorem object_of_current {id : Text} {k : ℕ} {t : QueueTask J} (h : q.current id = some (k, t)) :
    q.objects[k]? = some t := by
  simp only [current, Option.bind_eq_some_iff, Option.map_eq_some_iff, Prod.mk.injEq] at h
  obtain ⟨k', -, t', ht', rfl, rfl⟩ := h
  exact ht'

/-- A condition on the object of an id. -/
theorem of_current_iff {id : Text} {k : ℕ} {t : QueueTask J} (h : q.current id = some (k, t))
    {P : QueueTask J → Prop} : (∀ k' t', q.current id = some (k', t') → P t') ↔ P t := by
  constructor
  · intro hall
    exact hall k t h
  · intro ht k' t' h'
    rw [h] at h'
    cases h'
    exact ht

/-- Writing an object keeps what is over exactly where that object was not over, or keeps its
status. -/
theorem keepsEnded_write_iff {k : ℕ} {t t' : QueueTask J} (h : q.objects[k]? = some t) :
    KeepsEnded q (q.write k t') ↔ (isOver t.status → t'.status = t.status) := by
  have hlt : k < q.objects.length := (List.getElem?_eq_some_iff.mp h).1
  constructor
  · intro hkeeps hover
    obtain ⟨u, hu, heq⟩ := hkeeps k t h hover
    have hwritten : (q.objects.set k t')[k]? = some t' := List.getElem?_set_self hlt
    have hut : u = t' := Option.some.inj (hu.symm.trans hwritten)
    exact hut ▸ heq
  · intro hstatus j u hj hover
    by_cases hjk : j = k
    · subst hjk
      obtain rfl : u = t := Option.some.inj (hj.symm.trans h)
      exact ⟨t', List.getElem?_set_self hlt, hstatus hover⟩
    · refine ⟨u, ?_, rfl⟩
      rw [write, List.getElem?_set_ne (Ne.symm hjk)]
      exact hj

theorem objects_findDedup (key : Text) : (q.findDedup now key).2.objects = q.objects := by
  rw [findDedup]
  split
  · rfl
  · dsimp only
    split_ifs
    · rfl
    · split
      · rfl
      · rfl

theorem objects_existing (key : Text) : (q.existing now key).2.objects = q.objects := by
  rw [existing]
  split_ifs
  · rfl
  · exact objects_findDedup key

theorem objects_rememberDedup (t : QueueTask J) : (q.rememberDedup env now t).objects = q.objects := by
  unfold rememberDedup
  dsimp only
  split_ifs
  · rfl
  · rfl
  · rfl

theorem keepsEnded_add (args : EnqueueArgs J) : KeepsEnded q (q.add env now args) := by
  intro k u hk _
  refine ⟨u, ?_, rfl⟩
  simp only [add, push, objects_rememberDedup]
  rw [List.getElem?_append_left (List.getElem?_eq_some_iff.mp hk).1]
  exact hk

theorem keepsEnded_enqueue (args : EnqueueArgs J) : KeepsEnded q (q.enqueue env now args).1 := by
  have hfound := @objects_existing J q now args.dedupKey
  rw [enqueue]
  split_ifs with hclosed
  · exact keepsEnded_refl q
  · cases hexisting : q.existing now args.dedupKey with
    | mk found q' =>
      rw [hexisting] at hfound
      cases found with
      | some k => exact keepsEnded_of_objects hfound
      | none =>
        dsimp only
        split_ifs
        · exact keepsEnded_of_objects hfound
        · exact (keepsEnded_of_objects hfound).trans (keepsEnded_add args)

/-- A claim writes, and hands out, tasks that were queued. -/
theorem claimFrom_spec (consumer : Text) (n : ℕ) (ready : List ReadyEntry) :
    KeepsEnded q (claimFrom env now consumer q n ready).1 ∧
      ∀ k ∈ (claimFrom env now consumer q n ready).2, ¬q.Ended k := by
  induction ready generalizing q n with
  | nil =>
    cases n with
    | zero => exact ⟨keepsEnded_of_objects rfl, by simp [claimFrom]⟩
    | succ n => exact ⟨keepsEnded_of_objects rfl, by simp [claimFrom]⟩
  | cons e ready ih =>
    cases n with
    | zero => exact ⟨keepsEnded_of_objects rfl, by simp [claimFrom]⟩
    | succ n =>
      rw [claimFrom]
      split
      · exact ih (n + 1)
      · rename_i k t hcurrent
        split_ifs with hqueued
        · have hobject := object_of_current hcurrent
          have hopen : ¬q.Ended k := by
            rintro ⟨u, hu, hover⟩
            obtain rfl : u = t := Option.some.inj (hu.symm.trans hobject)
            rw [hqueued] at hover
            cases hover
          have hwrite : KeepsEnded q (q.write k { t with
              status := .running
              leaseOwner := consumer
              leaseUntil := now + max 1 env.leaseSeconds
              updatedAt := now }) := by
            rw [keepsEnded_write_iff hobject]
            intro hover
            exact absurd ⟨t, hobject, hover⟩ hopen
          obtain ⟨hkeeps, hclaimed⟩ := ih (q := q.write k _) n
          refine ⟨hwrite.trans hkeeps, ?_⟩
          intro j hj
          rcases List.mem_cons.mp hj with rfl | hj
          · exact hopen
          · exact fun hended => hclaimed j hj (hwrite.ended hended)
        · exact ih (n + 1)

/-! ## Runs -/

variable (env)

/-- The result of a task that is over does not arrive, or is the one it ended with. -/
def Timely (q : MemoryQueue J) (move : ℚ × MemoryOp J) : Prop :=
  match move.2 with
  | .ack id _ => ∀ k t, q.current id = some (k, t) → isOver t.status → t.status = .succeeded
  | .cancel id => ∀ k t, q.current id = some (k, t) → isOver t.status → t.status = .cancelled
  | .fail id _ retryable => ∀ k t, q.current id = some (k, t) → isOver t.status →
      t.status = failStatus t retryable
  | _ => True

theorem timely_iff (q : MemoryQueue J) (move : ℚ × MemoryOp J) :
    KeepsEnded q (q.step env move) ↔ Timely q move := by
  obtain ⟨now, op⟩ := move
  cases op with
  | enqueue args => exact iff_of_true (keepsEnded_enqueue args) trivial
  | claim consumer count => exact iff_of_true (claimFrom_spec _ _ _).1 trivial
  | close => exact iff_of_true (keepsEnded_of_objects rfl) trivial
  | heartbeat id =>
    refine iff_of_true ?_ trivial
    simp only [step, heartbeat]
    split
    · exact keepsEnded_refl q
    · rename_i k t hcurrent
      split_ifs
      · rw [keepsEnded_write_iff (object_of_current hcurrent)]
        exact fun _ => rfl
      · exact keepsEnded_refl q
  | ack id result =>
    simp only [step, ack, Timely]
    split
    · rename_i hnone
      simp [hnone, keepsEnded_refl]
    · rename_i k t hcurrent
      rw [keepsEnded_write_iff (object_of_current hcurrent), of_current_iff hcurrent]
      exact ⟨fun h hover => (h hover).symm, fun h hover => (h hover).symm⟩
  | cancel id =>
    simp only [step, cancel, Timely]
    split
    · rename_i hnone
      simp [hnone, keepsEnded_refl]
    · rename_i k t hcurrent
      rw [keepsEnded_write_iff (object_of_current hcurrent), of_current_iff hcurrent]
      exact ⟨fun h hover => (h hover).symm, fun h hover => (h hover).symm⟩
  | fail id error retryable =>
    simp only [step, fail, Timely]
    split
    · rename_i hnone
      simp [hnone, keepsEnded_refl]
    · rename_i k t hcurrent
      rw [of_current_iff hcurrent]
      split_ifs
      · have hobjects : ∀ u v : QueueTask J, KeepsEnded q ((q.write k u).push v) ↔
            KeepsEnded q (q.write k u) := fun _ _ => Iff.rfl
        rw [hobjects, keepsEnded_write_iff (object_of_current hcurrent)]
        exact ⟨fun h hover => (h hover).symm, fun h hover => (h hover).symm⟩
      · rw [keepsEnded_write_iff (object_of_current hcurrent)]
        exact ⟨fun h hover => (h hover).symm, fun h hover => (h hover).symm⟩

/-- What an operation hands out is not over. -/
theorem not_ended_of_claimed (q : MemoryQueue J) (move : ℚ × MemoryOp J) {k : ℕ}
    (h : k ∈ q.claimed env move) : ¬q.Ended k := by
  obtain ⟨now, op⟩ := move
  cases op with
  | claim consumer count => exact (claimFrom_spec consumer (max 1 count) q.ready).2 k h
  | _ => exact absurd h List.not_mem_nil

/-- **A task that is over** never leaves its status and is never claimed again, exactly where no
result arrives for a task that is over but the one it ended with. -/
theorem ended_iff (start : MemoryQueue J) (moves : List (ℚ × MemoryOp J)) :
    (∀ n m, n ≤ m → KeepsEnded (Run.stateAt (step env) start moves n)
        (Run.stateAt (step env) start moves m) ∧
      ∀ move ∈ moves[m]?, ∀ k ∈ (Run.stateAt (step env) start moves m).claimed env move,
        ¬(Run.stateAt (step env) start moves n).Ended k) ↔
      Run.Along (step env) Timely start moves := by
  have hkept : (∀ n m, n ≤ m → KeepsEnded (Run.stateAt (step env) start moves n)
        (Run.stateAt (step env) start moves m)) ↔
      Run.Along (step env) (fun q move => KeepsEnded q (q.step env move)) start moves :=
    Run.forall_le_iff keepsEnded_refl fun _ _ _ hst htu => hst.trans htu
  rw [Run.along_iff (timely_iff env)] at hkept
  rw [← hkept]
  constructor
  · intro h n m hnm
    exact (h n m hnm).1
  · intro h n m hnm
    refine ⟨h n m hnm, ?_⟩
    intro move _ k hk hended
    exact not_ended_of_claimed env _ move hk ((h n m hnm).ended hended)

/-- A queue with default settings. -/
def plainQueue : MemoryQueueSettings := { queueName := of "download" }

/-- A task is claimed and cancelled while it runs; then its worker reports a failure. -/
def cancelledWhileRunning : List (ℚ × MemoryOp Unit) :=
  [(0, .enqueue { taskType := of "download", payload := (), id := of "t" }),
    (1, .claim (of "w") 1), (2, .cancel (of "t")), (3, .fail (of "t") (of "timeout") true),
    (4, .claim (of "w") 1)]

/-- The cancelled task is queued again, and claimed. -/
theorem cancelled_runs_again :
    ¬(∀ n m, n ≤ m → KeepsEnded
        (Run.stateAt (step plainQueue) {} cancelledWhileRunning n)
        (Run.stateAt (step plainQueue) {} cancelledWhileRunning m) ∧
      ∀ move ∈ cancelledWhileRunning[m]?,
        ∀ k ∈ (Run.stateAt (step plainQueue) {} cancelledWhileRunning m).claimed plainQueue move,
          ¬(Run.stateAt (step plainQueue) {} cancelledWhileRunning n).Ended k) := by
  intro h
  have hclaimed : 0 ∈ (Run.stateAt (step plainQueue) {} cancelledWhileRunning 4).claimed plainQueue
      (4, .claim (of "w") 1) := by decide +kernel
  have hstatus : (Run.stateAt (step plainQueue) {} cancelledWhileRunning 3).objects[0]?.map
      QueueTask.status = some .cancelled := by decide +kernel
  obtain ⟨t, ht, hcancelled⟩ := Option.map_eq_some_iff.mp hstatus
  exact (h 3 4 (by omega)).2 _ rfl 0 hclaimed ⟨t, ht, by rw [hcancelled]; rfl⟩

end MemoryQueue

end WolfNas
