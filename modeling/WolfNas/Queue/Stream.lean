import WolfNas.Queue.Redis

/-!
# The stream queue

The operations of the queue in Redis, as processes: each is a number of calls, between which
other processes may make theirs.

## Main definitions

* `StreamQueue.enqueue`, `StreamQueue.claim`, `StreamQueue.heartbeat`, `StreamQueue.ack`,
  `StreamQueue.fail`, `StreamQueue.cancel`, `StreamQueue.get` — the operations.
* `QueueOp`, `QueueOp.program` — an operation, and its process.
-/

namespace WolfNas

open Text

/-- What an operation returns: task objects, whether it was done, or an exception. -/
inductive QueueResult
  | tasks (ks : List ℕ)
  | done (b : Bool)
  | unavailable
  deriving DecidableEq

/-- The operations. -/
inductive QueueOp (J : Type)
  | enqueue (args : EnqueueArgs J)
  | claim (consumer : Text) (count : ℕ)
  | heartbeat (k : ℕ)
  | ack (k : ℕ) (result : Option J)
  | fail (k : ℕ) (error : Text) (retryable : Bool)
  | cancel (k : ℕ)
  | get (id : Text)

/-- A process of the queue. -/
abbrev Queueing (J α : Type) := Process (RedisCall J) (RedisCall.Reply J) α

/-- `retry_delay_seconds`. -/
def retryDelaySeconds (attempts : ℕ) : ℚ := min (5 * 2 ^ (attempts - 1)) 300

namespace StreamQueue

variable {J : Type} (env : StreamQueueSettings)

/-- A call. -/
def ask (c : RedisCall J) : Queueing J (RedisCall.Reply J c) := Process.ask c

/-! ## Parts of operations -/

/-- `_write_hash`. -/
def writeHash (k : ℕ) : Queueing J Unit := do
  let _ ← ask (.hset k)

/-- `_expire_hash`. -/
def expireHash (id : Text) : Queueing J Unit :=
  if env.taskTtlSeconds ≤ 0 then pure ()
  else do
    let _ ← ask (.expire id)

/-- `XACK` and `XDEL`; whether both were answered. -/
def removeEntry (streamId : Text) : Queueing J Bool := do
  match ← ask (.xack streamId) with
  | .error _ => return false
  | .ok _ =>
    match ← ask (.xdel streamId) with
    | .error _ => return false
    | .ok _ => return true

/-- The entry of a task, where it has one, is removed. -/
def removeEntryOf (t : QueueTask J) : Queueing J Bool :=
  if t.streamId = [] then pure true else removeEntry t.streamId

/-- `_finish_stream_entry`. -/
def finishStreamEntry (streamId : Text) : Queueing J Unit := do
  let _ ← removeEntry streamId

/-- `_hash_attempts`. -/
def hashAttempts (id : Text) : Queueing J ℕ := do
  match ← ask (.hgetAttempts id) with
  | .ok (some n) => return n
  | _ => return 0

/-- `get`. -/
def get (id : Text) : Queueing J (Option ℕ) := do
  match ← ask (.hgetall id) with
  | .ok (some h) => do
    let k ← ask (.create h)
    return some k
  | _ => return none

/-! ## Enqueueing -/

/-- How `_reserve_dedup` ends. -/
inductive Reserving
  | reserved
  | existing (k : ℕ)
  | failed
  deriving DecidableEq

/-- `_reserve_dedup`, with a number of tries. -/
def reserveDedup (key id : Text) : ℕ → Queueing J Reserving
  | 0 => return .failed
  | n + 1 => do
    match ← ask (.setReservation key id) with
    | .error _ => return .failed
    | .ok true => return .reserved
    | .ok false =>
      match ← ask (.getReservation key) with
      | .error _ => return .failed
      | .ok none => reserveDedup key id n
      | .ok (some existingId) =>
        if existingId = [] then reserveDedup key id n
        else
          match ← get existingId with
          | some k => return .existing k
          | none =>
            match ← ask (.delReservation key) with
            | .error _ => return .failed
            | .ok _ => reserveDedup key id n

/-- `_release_dedup`. -/
def releaseDedup (key id : Text) : Queueing J Unit := do
  if key = [] then return ()
  match ← ask (.getReservation key) with
  | .error _ => return ()
  | .ok owner =>
    if owner.getD [] = id then do
      let _ ← ask (.delReservation key)
    else return ()

/-- The rest of `enqueue` once the key is reserved. -/
def append (k : ℕ) (key id : Text) : Queueing J QueueResult := do
  match ← ask (.xadd k) with
  | .error _ =>
    releaseDedup key id
    return .unavailable
  | .ok _ =>
    writeHash k
    return .tasks [k]

/-- `enqueue`. -/
def enqueue (args : EnqueueArgs J) : Queueing J QueueResult := do
  let now ← ask .clock
  let k ← ask (.create (QueueTask.create env.queueName args.taskType args.payload args.dedupKey
    (args.priority.getD env.priority) (args.maxAttempts.getD (max 1 env.maxAttempts)) args.id now))
  if args.dedupKey = [] then append k [] args.id
  else
    match ← reserveDedup args.dedupKey args.id 5 with
    | .existing k' => return .tasks [k']
    | .failed => return .unavailable
    | .reserved => append k args.dedupKey args.id

/-! ## Claiming -/

/-- `_reclaim_fallback`. -/
def reclaimFallback (consumer : Text) (count : ℕ) : Queueing J (List (StreamMessage J)) := do
  match ← ask (.xpending (max 1 count)) with
  | .error _ => return []
  | .ok ids =>
    if ids = [] then return []
    else
      match ← ask (.xclaim consumer ids) with
      | .error _ => return []
      | .ok messages => return messages

/-- `_reclaim_stale`; none where it raises. -/
def reclaimStale (consumer : Text) (count : ℕ) :
    Queueing J (Option (List (StreamMessage J))) := do
  match ← ask (.xautoclaim consumer (max 1 count)) with
  | .ok messages => return some messages
  | .error .response =>
    let messages ← reclaimFallback consumer count
    return some messages
  | .error .other => return none

/-- `_read_new`; none where it raises. -/
def readNew (consumer : Text) (count : ℕ) : Queueing J (Option (List (StreamMessage J))) := do
  match ← ask (.xreadgroup consumer (max 1 count)) with
  | .ok messages => return some messages
  | .error _ => return none

/-- `_hydrate`. -/
def hydrate (message : StreamMessage J) : Queueing J (QueueTask J) := do
  let state ← ask (.hgetall message.2.taskId)
  let now ← ask .clock
  let t := match state with
    | .ok (some h) => h
    | _ => QueueTask.fromStream message.2 message.1 now
  return { t with
    id := if t.id = [] then message.2.taskId else t.id
    streamId := message.1 }

/-- A task that a consumer takes. -/
def taken (consumer : Text) (now : ℚ) (t : QueueTask J) : QueueTask J :=
  { t with
    status := .running
    leaseOwner := consumer
    leaseUntil := now + max 1 env.leaseSeconds
    updatedAt := now }

/-- The loop of `claim` over its messages. -/
def claimMessages (consumer : Text) (count : ℕ) :
    List (StreamMessage J) → List Text → List ℕ → Queueing J (List ℕ)
  | [], _, claimed => return claimed
  | message :: rest, seen, claimed =>
    if message.2.taskId = [] ∨ message.2.taskId ∈ seen then
      claimMessages consumer count rest seen claimed
    else do
      let t ← hydrate message
      if t.status.terminal then
        finishStreamEntry message.1
        claimMessages consumer count rest (message.2.taskId :: seen) claimed
      else do
        let now ← ask .clock
        if t.nextRetryAt ≠ 0 ∧ now < t.nextRetryAt then
          claimMessages consumer count rest (message.2.taskId :: seen) claimed
        else do
          let k ← ask (.create (taken env consumer now t))
          writeHash k
          if max 1 count ≤ claimed.length + 1 then return claimed ++ [k]
          else claimMessages consumer count rest (message.2.taskId :: seen) (claimed ++ [k])

/-- `claim`. -/
def claim (consumer : Text) (count : ℕ) : Queueing J QueueResult := do
  match ← reclaimStale consumer count with
  | none => return .unavailable
  | some stale =>
    let remaining := max 1 count - stale.length
    if remaining = 0 then do
      let ks ← claimMessages env consumer count stale [] []
      return .tasks ks
    else
      match ← readNew consumer remaining with
      | none => return .unavailable
      | some new =>
        let ks ← claimMessages env consumer count (stale ++ new) [] []
        return .tasks ks

/-! ## Working on a task -/

/-- `heartbeat`. -/
def heartbeat (k : ℕ) : Queueing J QueueResult := do
  match ← ask (.load k) with
  | none => return .done false
  | some t =>
    if t.streamId = [] then return .done false
    else do
      let now ← ask .clock
      ask (.assign k fun t => { t with leaseUntil := now + max 1 env.leaseSeconds, updatedAt := now })
      writeHash k
      match ← ask (.load k) with
      | none => return .done false
      | some t =>
        match ← ask (.xclaimJustid t.leaseOwner t.streamId) with
        | .error _ => return .done false
        | .ok _ => return .done true

/-- The end of `ack` and `cancel`: the entry is removed, and the hash is written. -/
def settle (k : ℕ) (t : QueueTask J) : Queueing J QueueResult := do
  let removed ← removeEntryOf t
  if removed then do
    writeHash k
    expireHash env t.id
    return .done true
  else return .done false

/-- `ack`. -/
def ack (k : ℕ) (result : Option J) : Queueing J QueueResult := do
  match ← ask (.load k) with
  | none => return .done false
  | some t =>
    let now ← ask .clock
    ask (.assign k fun t =>
      { t with status := .succeeded, result, leaseOwner := [], leaseUntil := 0, updatedAt := now })
    settle env k t

/-- `cancel`. -/
def cancel (k : ℕ) : Queueing J QueueResult := do
  match ← ask (.load k) with
  | none => return .done false
  | some t =>
    let now ← ask .clock
    ask (.assign k fun t =>
      { t with status := .cancelled, leaseOwner := [], leaseUntil := 0, updatedAt := now })
    settle env k t

/-- `fail` of a task that is tried again. -/
def retry (k : ℕ) (attempts : ℕ) : Queueing J QueueResult := do
  let now ← ask .clock
  ask (.assign k fun t =>
    { t with
      status := .queued
      leaseOwner := []
      leaseUntil := 0
      nextRetryAt := now + retryDelaySeconds attempts })
  writeHash k
  return .done true

/-- `fail` of a task that is given up. -/
def bury (k : ℕ) (t : QueueTask J) (error : Text) (retryable : Bool) : Queueing J QueueResult := do
  ask (.assign k fun t => { t with status := if retryable then .dead else .failed })
  writeHash k
  match ← ask (.xaddDead k error) with
  | .error _ => return .done false
  | .ok _ =>
    let removed ← removeEntryOf t
    if removed then do
      expireHash env t.id
      return .done true
    else return .done false

/-- `fail`. -/
def fail (k : ℕ) (error : Text) (retryable : Bool) : Queueing J QueueResult := do
  match ← ask (.load k) with
  | none => return .done false
  | some t =>
    let recorded ← hashAttempts t.id
    let now ← ask .clock
    let attempts := max t.attempts recorded + 1
    ask (.assign k fun t => { t with attempts, lastError := error, updatedAt := now })
    if retryable ∧ attempts < t.maxAttempts then retry k attempts
    else bury env k t error retryable

end StreamQueue

/-- The process of an operation. -/
def QueueOp.program {J : Type} (env : StreamQueueSettings) : QueueOp J → Queueing J QueueResult
  | .enqueue args => StreamQueue.enqueue env args
  | .claim consumer count => StreamQueue.claim env consumer count
  | .heartbeat k => StreamQueue.heartbeat env k
  | .ack k result => StreamQueue.ack env k result
  | .fail k error retryable => StreamQueue.fail env k error retryable
  | .cancel k => StreamQueue.cancel env k
  | .get id => do
    let found ← StreamQueue.get id
    return .tasks found.toList

end WolfNas
