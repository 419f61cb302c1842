import WolfNas.Lib.Process
import WolfNas.Queue.Hash
import Mathlib.Data.Rat.Floor
import Mathlib.Logic.Function.Basic
import Mathlib.Tactic.Linarith

/-!
# The store of the stream queue

The queue in Redis has a stream of tasks with one consumer group, a hash with the state of each
task, and a reservation for each deduplication key.  The task objects that a process shares among
its threads are in the store too, numbered in the order of their creation.

## Main definitions

* `StreamQueueSettings` — the settings of a queue.
* `StreamFields`, `QueueTask.toStream`, `QueueTask.fromStream`, `QueueTask.stored` — what a task
  is written as.
* `TaskStore` — the store.
* `RedisCall`, `TaskStore.exec` — the calls of the queue, and their answers.
-/

namespace WolfNas

open Text

/-- The settings of a queue in Redis, and the ids that the server gives its stream entries. -/
structure StreamQueueSettings where
  queueName : Text
  leaseSeconds : ℤ := 120
  retryIdleMs : ℤ := 30000
  maxAttempts : ℤ := 5
  dedupTtlSeconds : ℤ := 86400
  taskTtlSeconds : ℤ := 86400
  priority : ℤ := 0
  streamIdOf : ℕ → Text
  streamIdOf_injective : Function.Injective streamIdOf
  streamIdOf_ne_nil : ∀ n, streamIdOf n ≠ []

/-- The idle time in seconds after which an entry is stale. -/
def StreamQueueSettings.retryIdle (env : StreamQueueSettings) : ℚ := max 1 env.retryIdleMs / 1000

/-- `f"{x:.6f}"`, rounded to even. -/
def sixDigits (x : ℚ) : ℚ :=
  let n := ⌊x * 1000000⌋
  let rest := x * 1000000 - n
  (if rest < 1 / 2 ∨ (rest = 1 / 2 ∧ n % 2 = 0) then n else n + 1) / 1000000

/-- `task.to_stream()`. -/
structure StreamFields (J : Type) where
  taskId : Text
  queueName : Text
  taskType : Text
  payload : J
  dedupKey : Text
  priority : ℤ
  attempts : ℕ
  maxAttempts : ℕ
  createdAt : ℚ
  deriving DecidableEq

namespace QueueTask

variable {J : Type}

/-- `to_stream`. -/
def toStream (t : QueueTask J) : StreamFields J :=
  { taskId := t.id
    queueName := t.queueName
    taskType := t.taskType
    payload := t.payload
    dedupKey := t.dedupKey
    priority := t.priority
    attempts := t.attempts
    maxAttempts := t.maxAttempts
    createdAt := sixDigits t.createdAt }

/-- `from_stream`. -/
def fromStream (fields : StreamFields J) (streamId : Text) (now : ℚ) : QueueTask J :=
  { id := fields.taskId
    queueName := fields.queueName
    taskType := fields.taskType
    payload := fields.payload
    dedupKey := fields.dedupKey
    priority := fields.priority
    attempts := fields.attempts
    maxAttempts := max 1 fields.maxAttempts
    streamId
    createdAt := fields.createdAt
    updatedAt := now }

/-- The task that `from_hash` reads from what `to_hash` writes. -/
def stored (t : QueueTask J) : QueueTask J :=
  { t with
    maxAttempts := max 1 t.maxAttempts
    createdAt := sixDigits t.createdAt
    updatedAt := sixDigits t.updatedAt
    leaseUntil := sixDigits t.leaseUntil
    nextRetryAt := sixDigits t.nextRetryAt }

@[simp] theorem stored_id (t : QueueTask J) : t.stored.id = t.id := rfl

@[simp] theorem stored_status (t : QueueTask J) : t.stored.status = t.status := rfl

@[simp] theorem stored_dedupKey (t : QueueTask J) : t.stored.dedupKey = t.dedupKey := rfl

@[simp] theorem stored_streamId (t : QueueTask J) : t.stored.streamId = t.streamId := rfl

@[simp] theorem stored_leaseOwner (t : QueueTask J) : t.stored.leaseOwner = t.leaseOwner := rfl

end QueueTask

/-- An entry of the stream. -/
structure StreamEntry (J : Type) where
  number : ℕ
  fields : StreamFields J
  deriving DecidableEq

/-- An entry that was delivered and is not acknowledged. -/
structure PendingEntry where
  number : ℕ
  consumer : Text
  since : ℚ
  deriving DecidableEq

/-- The store. -/
structure TaskStore (J : Type) where
  now : ℚ := 0
  /-- The task objects of the processes. -/
  objects : List (QueueTask J) := []
  entries : List (StreamEntry J) := []
  lastEntry : ℕ := 0
  lastDelivered : ℕ := 0
  pending : List PendingEntry := []
  dead : List (StreamFields J × Text) := []
  /-- The hash of a task, and when it expires. -/
  hashes : Text → Option (QueueTask J × Option ℚ) := fun _ => none
  /-- The id reserved for a deduplication key, and when the reservation expires. -/
  reservations : Text → Option (Text × Option ℚ) := fun _ => none

/-- A failed call: an error that the server answered, or any other. -/
inductive RedisError
  | response | other
  deriving DecidableEq

/-- How a call fails: the server refuses it, it is lost, or its answer is lost. -/
inductive RedisFault
  | refused | lost | unanswered
  deriving DecidableEq

/-- The circumstances of a call: whether it fails, and the stale entries that the server comes to
look at. -/
structure RedisWeather where
  fault : Option RedisFault := none
  reached : List ℕ := []

/-- A message that a consumer gets: the entry's id and fields. -/
abbrev StreamMessage (J : Type) := Text × StreamFields J

/-- The calls of the queue on the server, and those on the process's own clock and objects. -/
inductive RedisCall (J : Type)
  | clock
  | create (t : QueueTask J)
  | load (k : ℕ)
  | assign (k : ℕ) (f : QueueTask J → QueueTask J)
  | setReservation (key id : Text)
  | getReservation (key : Text)
  | delReservation (key : Text)
  | xadd (k : ℕ)
  | xaddDead (k : ℕ) (error : Text)
  | hset (k : ℕ)
  | hgetall (id : Text)
  | hgetAttempts (id : Text)
  | expire (id : Text)
  | xautoclaim (consumer : Text) (count : ℕ)
  | xpending (count : ℕ)
  | xclaim (consumer : Text) (ids : List Text)
  | xclaimJustid (consumer : Text) (id : Text)
  | xreadgroup (consumer : Text) (count : ℕ)
  | xack (id : Text)
  | xdel (id : Text)

/-- What a call is answered. -/
@[reducible] def RedisCall.Reply (J : Type) : RedisCall J → Type
  | .clock => ℚ
  | .create _ => ℕ
  | .load _ => Option (QueueTask J)
  | .assign _ _ => Unit
  | .setReservation _ _ => Except RedisError Bool
  | .getReservation _ => Except RedisError (Option Text)
  | .hgetall _ => Except RedisError (Option (QueueTask J))
  | .hgetAttempts _ => Except RedisError (Option ℕ)
  | .xautoclaim _ _ | .xclaim _ _ | .xreadgroup _ _ => Except RedisError (List (StreamMessage J))
  | .xpending _ => Except RedisError (List Text)
  | .delReservation _ | .xadd _ | .xaddDead _ _ | .hset _ | .expire _ | .xclaimJustid _ _
  | .xack _ | .xdel _ => Except RedisError Unit

namespace TaskStore

variable {J : Type} (env : StreamQueueSettings) (s : TaskStore J)

/-- A value that expires, where it has not. -/
def unexpired {α : Type} (now : ℚ) : Option (α × Option ℚ) → Option α
  | none => none
  | some (a, expires) => if ∃ e ∈ expires, e ≤ now then none else some a

/-- The hash of a task. -/
def hash (id : Text) : Option (QueueTask J) := unexpired s.now (s.hashes id)

/-- The id reserved for a key. -/
def reserved (key : Text) : Option Text := unexpired s.now (s.reservations key)

/-- `HSET`, which keeps the hash's time to live. -/
def writeHash (t : QueueTask J) : TaskStore J :=
  let expires := if (s.hash t.id).isSome then (s.hashes t.id).bind Prod.snd else none
  { s with hashes := Function.update s.hashes t.id (some (t.stored, expires)) }

/-- `EXPIRE`. -/
def expireHash (id : Text) (ttl : ℤ) : TaskStore J :=
  match s.hash id with
  | none => s
  | some h => { s with hashes := Function.update s.hashes id (some (h, some (s.now + ttl))) }

/-- The message of an entry. -/
def messageOf (e : StreamEntry J) : StreamMessage J := (env.streamIdOf e.number, e.fields)

/-- The pending entries that a consumer can take over. -/
def claimable (minIdle : ℚ) (reached : List ℕ) : List PendingEntry :=
  s.pending.filter fun p => minIdle ≤ s.now - p.since ∧ p.number ∈ reached

/-- The entry of a number. -/
def entryOf (number : ℕ) : Option (StreamEntry J) := s.entries.find? fun e => e.number = number

/-- `XCLAIM`: entries change their consumer, and those that were deleted are dropped. -/
def takeOver (consumer : Text) (taken : List PendingEntry) : TaskStore J :=
  { s with
    pending := s.pending.filterMap fun p =>
      if p ∈ taken then
        if (s.entryOf p.number).isSome then some { p with consumer, since := s.now } else none
      else some p }

/-- The entries not delivered yet. -/
def undelivered : List (StreamEntry J) := s.entries.filter fun e => s.lastDelivered < e.number

/-- `XREADGROUP`. -/
def deliver (consumer : Text) (new : List (StreamEntry J)) : TaskStore J :=
  { s with
    lastDelivered := (new.map StreamEntry.number).foldl max s.lastDelivered
    pending := s.pending ++ new.map fun e => ⟨e.number, consumer, s.now⟩ }

/-- What a call does where it does not fail. -/
def serve (w : RedisWeather) (call : RedisCall J) : TaskStore J × call.Reply :=
  match call with
  | .clock => (s, s.now)
  | .create t => ({ s with objects := s.objects ++ [t] }, s.objects.length)
  | .load k => (s, s.objects[k]?)
  | .assign k f => ({ s with objects := s.objects.modify k f }, ())
  | .setReservation key id =>
    if (s.reserved key).isSome then (s, .ok false)
    else
      let expires := if env.dedupTtlSeconds ≤ 0 then none else some (s.now + env.dedupTtlSeconds)
      ({ s with reservations := Function.update s.reservations key (some (id, expires)) }, .ok true)
  | .getReservation key => (s, .ok (s.reserved key))
  | .delReservation key =>
    ({ s with reservations := Function.update s.reservations key none }, .ok ())
  | .xadd k =>
    match s.objects[k]? with
    | none => (s, .ok ())
    | some t =>
      ({ s with
        entries := s.entries ++ [⟨s.lastEntry + 1, t.toStream⟩]
        lastEntry := s.lastEntry + 1 }, .ok ())
  | .xaddDead k error =>
    match s.objects[k]? with
    | none => (s, .ok ())
    | some t => ({ s with dead := s.dead ++ [(t.toStream, error)] }, .ok ())
  | .hset k =>
    match s.objects[k]? with
    | none => (s, .ok ())
    | some t => (s.writeHash t, .ok ())
  | .hgetall id => (s, .ok (s.hash id))
  | .hgetAttempts id => (s, .ok ((s.hash id).map QueueTask.attempts))
  | .expire id => (s.expireHash id env.taskTtlSeconds, .ok ())
  | .xautoclaim consumer count =>
    let taken := (s.claimable env.retryIdle w.reached).take count
    (s.takeOver consumer taken,
      .ok (taken.filterMap fun p => (s.entryOf p.number).map (messageOf env)))
  | .xpending count =>
    (s, .ok (((s.claimable env.retryIdle (s.pending.map PendingEntry.number)).take count).map
      fun p => env.streamIdOf p.number))
  | .xclaim consumer ids =>
    let taken := (s.claimable env.retryIdle (s.pending.map PendingEntry.number)).filter
      fun p => env.streamIdOf p.number ∈ ids
    (s.takeOver consumer taken,
      .ok (taken.filterMap fun p => (s.entryOf p.number).map (messageOf env)))
  | .xclaimJustid consumer id =>
    (s.takeOver consumer (s.pending.filter fun p => env.streamIdOf p.number = id), .ok ())
  | .xreadgroup consumer count =>
    let new := s.undelivered.take count
    (s.deliver consumer new, .ok (new.map (messageOf env)))
  | .xack id => ({ s with pending := s.pending.filter fun p => env.streamIdOf p.number ≠ id }, .ok ())
  | .xdel id => ({ s with entries := s.entries.filter fun e => env.streamIdOf e.number ≠ id }, .ok ())

/-- The answer to a call that failed; calls within the process do not fail. -/
def failure (e : RedisError) : (call : RedisCall J) → Option call.Reply
  | .clock | .create _ | .load _ | .assign _ _ => none
  | .setReservation _ _ | .getReservation _ | .delReservation _ | .xadd _ | .xaddDead _ _
  | .hset _ | .hgetall _ | .hgetAttempts _ | .expire _ | .xautoclaim _ _ | .xpending _
  | .xclaim _ _ | .xclaimJustid _ _ | .xreadgroup _ _ | .xack _ | .xdel _ => some (.error e)

/-- A call is answered. -/
def exec (w : RedisWeather) (call : RedisCall J) : TaskStore J × call.Reply :=
  match w.fault with
  | none => s.serve env w call
  | some .refused => ((failure .response call).map fun r => (s, r)).getD (s.serve env w call)
  | some .lost => ((failure .other call).map fun r => (s, r)).getD (s.serve env w call)
  | some .unanswered =>
    ((failure .other call).map fun r => ((s.serve env w call).1, r)).getD (s.serve env w call)

/-- Time passes. -/
def tick (now : ℚ) : TaskStore J := { s with now := max s.now now }

/-- A call is served, or it fails, and then it may have been served all the same. -/
theorem exec_cases (w : RedisWeather) (call : RedisCall J) :
    s.exec env w call = s.serve env w call ∨
      ∃ e r, failure e call = some r ∧
        (s.exec env w call = (s, r) ∨ s.exec env w call = ((s.serve env w call).1, r)) := by
  unfold exec
  split
  · exact .inl rfl
  · cases h : failure .response call with
    | none => exact .inl rfl
    | some r => exact .inr ⟨_, r, h, .inl rfl⟩
  · cases h : failure .other call with
    | none => exact .inl rfl
    | some r => exact .inr ⟨_, r, h, .inl rfl⟩
  · cases h : failure .other call with
    | none => exact .inl rfl
    | some r => exact .inr ⟨_, r, h, .inr rfl⟩

/-! ## Hashes -/

variable {s}

theorem unexpired_eq_some {α : Type} {now : ℚ} (a : α) {expires : Option ℚ}
    (h : ∀ e ∈ expires, now < e) : unexpired now (some (a, expires)) = some a := by
  refine if_neg ?_
  rintro ⟨e, he, hle⟩
  exact absurd (h e he) (not_lt.mpr hle)

/-- A value that is there later was there before. -/
theorem unexpired_of_le {α : Type} {now now' : ℚ} (hle : now ≤ now') (cell : Option (α × Option ℚ))
    {a : α} (h : unexpired now' cell = some a) : unexpired now cell = some a := by
  cases cell with
  | none => cases h
  | some cell =>
    obtain ⟨b, expires⟩ := cell
    change (if ∃ e ∈ expires, e ≤ now' then none else some b) = some a at h
    split_ifs at h with hexpired
    obtain rfl := Option.some.inj h
    refine unexpired_eq_some _ ?_
    intro e he
    by_contra hnot
    exact hexpired ⟨e, he, (not_lt.mp hnot).trans hle⟩

/-- The time to live of a hash that is there is not over. -/
theorem lt_expires_of_hash {id : Text} (h : (s.hash id).isSome) :
    ∀ e ∈ (s.hashes id).bind Prod.snd, s.now < e := by
  intro e he
  cases hcell : s.hashes id with
  | none => simp [hcell] at he
  | some cell =>
    obtain ⟨t, expires⟩ := cell
    rw [hcell] at he
    by_contra hle
    have hgone : s.hash id = none := by
      rw [hash, hcell]
      exact if_pos ⟨e, he, not_lt.mp hle⟩
    simp [hgone] at h

theorem hash_writeHash (t : QueueTask J) (id : Text) :
    (s.writeHash t).hash id = if id = t.id then some t.stored else s.hash id := by
  split_ifs with hid
  · subst hid
    change unexpired s.now (Function.update s.hashes t.id _ t.id) = some t.stored
    rw [Function.update_self]
    refine unexpired_eq_some _ ?_
    split_ifs with hsome
    · exact lt_expires_of_hash hsome
    · simp
  · change unexpired s.now (Function.update s.hashes t.id _ id) = s.hash id
    rw [Function.update_of_ne hid, hash]

theorem hash_expireHash (id id' : Text) {ttl : ℤ} (httl : 0 < ttl) :
    (s.expireHash id ttl).hash id' = s.hash id' := by
  unfold expireHash
  split
  · rfl
  · rename_i t ht
    change unexpired s.now (Function.update s.hashes id _ id') = s.hash id'
    by_cases hid : id' = id
    · subst hid
      rw [Function.update_self, ht]
      refine unexpired_eq_some _ ?_
      intro e he
      obtain rfl : s.now + (ttl : ℚ) = e := Option.some.inj he
      have hpos : (0 : ℚ) < ttl := by exact_mod_cast httl
      linarith
    · rw [Function.update_of_ne hid, hash]

theorem now_le_tick (now : ℚ) : s.now ≤ (s.tick now).now := le_max_left _ _

/-- A hash that is there later was there before. -/
theorem hash_of_tick {now : ℚ} {id : Text} {t : QueueTask J} (h : (s.tick now).hash id = some t) :
    s.hash id = some t := unexpired_of_le (now_le_tick now) _ h

/-- A reservation that is there later was there before. -/
theorem reserved_of_tick {now : ℚ} {key id : Text} (h : (s.tick now).reserved key = some id) :
    s.reserved key = some id := unexpired_of_le (now_le_tick now) _ h

end TaskStore

/-- A queue with default settings; the server numbers its entries. -/
def plainStreamQueue : StreamQueueSettings where
  queueName := of "download"
  streamIdOf n := List.replicate (n + 1) '0'
  streamIdOf_injective m n h := by
    have hlength := congrArg List.length h
    simpa using hlength
  streamIdOf_ne_nil n := by simp

end WolfNas
