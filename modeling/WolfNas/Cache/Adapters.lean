import WolfNas.Lib.Dict
import Mathlib.Data.Rat.Cast.Order
import Mathlib.Algebra.Order.Monoid.WithTop
import Mathlib.Logic.Function.Basic
import Mathlib.Tactic.Linarith
import WolfNas.Lib.LeastRecent

/-!
# Cache adapters

A cache in memory that drops its least recently used entry, a cache in Redis that also writes to
one in memory, and the two in tiers.  The value of an entry may itself be empty, which a caller
cannot tell from a miss.

The entries of the cache in memory stand in the order of their last use, and the oldest one goes
where there is no room.  Beside it runs a map that knows when each key was last used and drops the
key that was used longest ago; the two answer every call alike.

## Main definitions

* `CacheEntry`, `CacheEntry.isExpired` — a value, and whether its time to live is over.
* `MemoryCache` — entries up to `maxsize`, the least recently used first.
* `RedisLink` — what becomes of a command that is sent to Redis.
* `RedisCache`, `TieredCache` — the other two adapters.
* `CacheMove` — an operation on a cache, or time.
* `CacheCall`, `CacheAnswer` — a call of the adapter in memory, and what it returns.
* `CacheSettings.lruCall` — the same call on a map that drops the least recently used key.

## Main results

* `CacheEntry.isExpired_iff` — an entry has expired when its time is past.
* `MemoryCache.entry_of_get`, `MemoryCache.entry_of_set`, `MemoryCache.entry_drop` — what a cache
  in memory holds after an operation was there before, or is what is set.
* `RedisCache.get_eq_some_iff`, `TieredCache.get_eq_some_iff` — where a value is read from.
* `MemoryCache.simulates` — every sequence of calls.
-/

namespace WolfNas

/-- An entry; an empty value is a `None` that was cached. -/
structure CacheEntry (V : Type) where
  value : Option V
  createdAt : ℚ
  ttl : Option ℤ

namespace CacheEntry

variable {V : Type}

/-- `CacheEntry.is_expired`. -/
def isExpired (e : CacheEntry V) (now : ℚ) : Bool :=
  match e.ttl with
  | none => false
  | some ttl => ttl < now - e.createdAt

end CacheEntry

/-- The last moment of what is set with a time to live. -/
def dueAt (now : ℚ) : Option ℤ → WithTop ℚ
  | none => ⊤
  | some ttl => ((now + ttl : ℚ) : WithTop ℚ)

/-- The last moment of an entry. -/
def CacheEntry.due {V : Type} (e : CacheEntry V) : WithTop ℚ := dueAt e.createdAt e.ttl

/-- An entry has expired when its last moment is past. -/
theorem CacheEntry.isExpired_iff {V : Type} (e : CacheEntry V) (now : ℚ) :
    e.isExpired now = false ↔ (now : WithTop ℚ) ≤ e.due := by
  obtain ⟨value, createdAt, ttl⟩ := e
  cases ttl with
  | none => simp [isExpired, due, dueAt]
  | some ttl =>
    simp only [isExpired, due, dueAt, decide_eq_false_iff_not, not_lt, WithTop.coe_le_coe]
    constructor
    · intro h
      linarith
    · intro h
      linarith

/-- The settings of a cache in memory. -/
structure CacheSettings where
  maxsize : ℕ
  /-- With no room at all, `set` would never return. -/
  pos : 0 < maxsize
  defaultTtl : Option ℤ

/-- The time to live of a `set`. -/
def CacheSettings.ttlOf (settings : CacheSettings) (ttl : Option ℤ) : Option ℤ :=
  ttl <|> settings.defaultTtl

/-! ## The cache in memory -/

section

variable {K V : Type}

/-- At most `n` steps of the loop that evicts the oldest entry while there is no room. -/
def evictLoop (maxsize : ℕ) : ℕ → Dict K (CacheEntry V) → Dict K (CacheEntry V)
  | 0, cache => cache
  | n + 1, cache =>
    if maxsize ≤ cache.entries.length then evictLoop maxsize n cache.dropOldest else cache

theorem length_evictLoop {maxsize : ℕ} (hsize : 0 < maxsize) (n : ℕ)
    (cache : Dict K (CacheEntry V)) (hn : cache.entries.length ≤ n) :
    (evictLoop maxsize n cache).entries.length < maxsize := by
  induction n generalizing cache with
  | zero => simpa [evictLoop, Nat.le_zero.mp hn] using hsize
  | succ n ih =>
    rw [evictLoop]
    split_ifs with hfull
    · apply ih
      rw [Dict.dropOldest, List.length_tail]
      omega
    · omega

theorem get_of_evictLoop [DecidableEq K] {maxsize n : ℕ} {cache : Dict K (CacheEntry V)} {k : K}
    {e : CacheEntry V} (h : (evictLoop maxsize n cache).get k = some e) : cache.get k = some e := by
  induction n generalizing cache with
  | zero => exact h
  | succ n ih =>
    rw [evictLoop] at h
    split_ifs at h
    · exact Dict.get_of_dropOldest (ih h)
    · exact h

end

/-- `MemoryCacheAdapter`: its entries, the least recently used first. -/
structure MemoryCache (settings : CacheSettings) (K V : Type) where
  cache : Dict K (CacheEntry V)
  bound : cache.entries.length ≤ settings.maxsize

namespace MemoryCache

variable {settings : CacheSettings} {K V : Type} [DecidableEq K] (c : MemoryCache settings K V)
  (now : ℚ) (key : K)

/-- A cache with no entries. -/
def new : MemoryCache settings K V := ⟨Dict.empty, Nat.zero_le _⟩

/-- The entry of a key, expired or not. -/
def entry : Option (CacheEntry V) := c.cache.get key

/-- `del self._cache[key]`. -/
def drop : MemoryCache settings K V := ⟨c.cache.erase key, (c.cache.length_erase_le key).trans c.bound⟩

/-- `move_to_end(key)`. -/
def moveToEnd : MemoryCache settings K V :=
  ⟨c.cache.moveToEnd key, (c.cache.length_moveToEnd key).trans_le c.bound⟩

/-- `MemoryCacheAdapter.get`. -/
def get : Option V × MemoryCache settings K V :=
  match c.entry key with
  | none => (none, c)
  | some e => if e.isExpired now then (none, c.drop key) else (e.value, c.moveToEnd key)

/-- The entries once there is room for one more. -/
def makeRoom : Dict K (CacheEntry V) :=
  evictLoop settings.maxsize c.cache.entries.length c.cache

/-- `MemoryCacheAdapter.set`; it always succeeds. -/
def set (value : Option V) (ttl : Option ℤ) : MemoryCache settings K V where
  cache := (c.drop key).makeRoom.set key ⟨value, now, settings.ttlOf ttl⟩
  bound := (Dict.length_set_le _ _ _).trans (length_evictLoop settings.pos _ _ le_rfl)

/-- `MemoryCacheAdapter.delete`. -/
def delete : Bool × MemoryCache settings K V := ((c.entry key).isSome, c.drop key)

/-! ### What is read -/

variable {c now key} {k : K} {e : CacheEntry V} {v : V}

theorem entry_drop : (c.drop key).entry k = if k = key then none else c.entry k :=
  Dict.get_erase c.cache key k

/-- A value is read exactly from an entry that has not expired. -/
theorem get_eq_some_iff : (c.get now key).1 = some v ↔
    ∃ e, c.entry key = some e ∧ e.value = some v ∧ (now : WithTop ℚ) ≤ e.due := by
  unfold get
  cases hentry : c.entry key with
  | none => simp
  | some e =>
    by_cases hexpired : e.isExpired now
    · have hlate : ¬(now : WithTop ℚ) ≤ e.due := by
        rw [← e.isExpired_iff, hexpired]
        decide
      simp [hexpired, hlate]
    · have htimely : (now : WithTop ℚ) ≤ e.due := by
        rw [← e.isExpired_iff]
        simpa using hexpired
      simp [hexpired, htimely]

/-- What is there after `get` was there before. -/
theorem entry_of_get (h : (c.get now key).2.entry k = some e) : c.entry k = some e := by
  unfold get at h
  split at h
  · exact h
  · split_ifs at h
    · dsimp only at h
      rw [entry_drop] at h
      split_ifs at h
      exact h
    · exact (Dict.get_moveToEnd c.cache key k).symm.trans h

theorem entry_set_self (value : Option V) (ttl : Option ℤ) :
    (c.set now key value ttl).entry key = some ⟨value, now, settings.ttlOf ttl⟩ :=
  Dict.get_set_self _ _ _

/-- What is there under another key after `set` was there before. -/
theorem entry_of_set {value : Option V} {ttl : Option ℤ}
    (h : (c.set now key value ttl).entry k = some e) (hne : k ≠ key) : c.entry k = some e := by
  change Dict.get _ k = some e at h
  rw [set, Dict.get_set, if_neg hne] at h
  have hdrop : (c.drop key).entry k = some e := get_of_evictLoop h
  rwa [entry_drop, if_neg hne] at hdrop

end MemoryCache

/-! ## The cache in Redis -/

/-- What becomes of a command: there is no connection, it fails on the way, it is answered, or its
answer is lost. The store swallows the failures. -/
inductive RedisLink
  | down | lost | answered | unanswered
  deriving DecidableEq

/-- The command takes effect. -/
def RedisLink.reaches : RedisLink → Bool
  | .answered | .unanswered => true
  | .down | .lost => false

/-- A `SET` takes effect: Redis refuses a time to live that is not positive. -/
def RedisLink.sets (link : RedisLink) (ttl : Option ℤ) : Bool :=
  link.reaches && decide (∀ s ∈ ttl, 0 < s)

/-- A key in Redis. -/
structure RedisCell (V : Type) where
  value : Option V
  expires : WithTop ℚ

theorem fallback_size_pos : 0 < 2000 := by decide

/-- The settings of the second tier, with the size of its memory. -/
def CacheSettings.fallback (settings : CacheSettings) : CacheSettings :=
  { settings with maxsize := 2000, pos := fallback_size_pos }

/-- `RedisCacheAdapter`, and its keys in Redis. -/
structure RedisCache (settings : CacheSettings) (K V : Type) where
  redis : K → Option (RedisCell V)
  fallback : MemoryCache settings K V

namespace RedisCache

variable {settings : CacheSettings} {K V : Type} [DecidableEq K] (c : RedisCache settings K V)
  (now : ℚ) (link : RedisLink) (key : K)

/-- A cache with no entries. -/
def new : RedisCache settings K V := ⟨fun _ => none, .new⟩

/-- The key as Redis has it, where it has not expired. -/
def cell : Option (RedisCell V) := (c.redis key).filter fun cell => (now : WithTop ℚ) < cell.expires

/-- `RedisStore.get`. -/
def fetch : Option (RedisCell V) := if link = .answered then c.cell now key else none

/-- `RedisCacheAdapter.get`. -/
def get : Option V × RedisCache settings K V :=
  match c.fetch now link key with
  | some cell => (cell.value, c)
  | none => ((c.fallback.get now key).1, { c with fallback := (c.fallback.get now key).2 })

/-- `RedisCacheAdapter.set`; it always succeeds, as the cache in memory does. -/
def set (value : Option V) (ttl : Option ℤ) : RedisCache settings K V where
  redis :=
    if link.sets (settings.ttlOf ttl) then
      Function.update c.redis key (some ⟨value, dueAt now (settings.ttlOf ttl)⟩)
    else c.redis
  fallback := c.fallback.set now key value ttl

/-- `RedisCacheAdapter.delete`. -/
def delete : Bool × RedisCache settings K V where
  fst := decide (link ≠ .down) || (c.fallback.delete key).1
  snd :=
    { redis := if link.reaches then Function.update c.redis key none else c.redis
      fallback := (c.fallback.delete key).2 }

/-- Redis evicts a key. -/
def forget : RedisCache settings K V := { c with redis := Function.update c.redis key none }

variable {c now link key} {v : V}

/-- A value is read from Redis, or from memory where Redis gives nothing. -/
theorem get_eq_some_iff : (c.get now link key).1 = some v ↔
    (∃ cell, c.fetch now link key = some cell ∧ cell.value = some v) ∨
      (c.fetch now link key = none ∧ (c.fallback.get now key).1 = some v) := by
  unfold get
  cases c.fetch now link key with
  | none => simp
  | some cell => simp

omit [DecidableEq K] in
theorem fetch_eq_some_iff {cell : RedisCell V} : c.fetch now link key = some cell ↔
    link = .answered ∧ c.redis key = some cell ∧ (now : WithTop ℚ) < cell.expires := by
  simp [fetch, RedisCache.cell]

/-- Reading changes nothing in Redis. -/
theorem redis_get : (c.get now link key).2.redis = c.redis := by
  unfold get
  cases c.fetch now link key with
  | none => rfl
  | some cell => rfl

/-- What is in memory after `get` was there before. -/
theorem fallback_entry_of_get {k : K} {e : CacheEntry V}
    (h : (c.get now link key).2.fallback.entry k = some e) : c.fallback.entry k = some e := by
  unfold get at h
  cases hfetch : c.fetch now link key with
  | none =>
    rw [hfetch] at h
    exact MemoryCache.entry_of_get h
  | some cell =>
    rw [hfetch] at h
    exact h

/-- What is in Redis after `set` is what is set, or was there before. -/
theorem redis_of_set {k : K} {cell : RedisCell V} {value : Option V} {ttl : Option ℤ}
    (h : (c.set now link key value ttl).redis k = some cell) :
    (k = key ∧ cell = ⟨value, dueAt now (settings.ttlOf ttl)⟩) ∨
      ((k = key → link.sets (settings.ttlOf ttl) = false) ∧ c.redis k = some cell) := by
  have hredis : (if link.sets (settings.ttlOf ttl) then
      Function.update c.redis key (some ⟨value, dueAt now (settings.ttlOf ttl)⟩)
    else c.redis) k = some cell := h
  split_ifs at hredis with hsets
  · by_cases hk : k = key
    · subst hk
      rw [Function.update_self] at hredis
      exact .inl ⟨rfl, (Option.some.inj hredis).symm⟩
    · rw [Function.update_of_ne hk] at hredis
      exact .inr ⟨fun heq => absurd heq hk, hredis⟩
  · exact .inr ⟨fun _ => by simpa using hsets, hredis⟩

/-- What is in Redis after `delete` was there before. -/
theorem redis_of_delete {k : K} {cell : RedisCell V} (h : (c.delete link key).2.redis k = some cell) :
    c.redis k = some cell := by
  have hredis : (if link.reaches then Function.update c.redis key none else c.redis) k =
      some cell := h
  split_ifs at hredis
  · by_cases hk : k = key
    · subst hk
      simp at hredis
    · rwa [Function.update_of_ne hk] at hredis
  · exact hredis

theorem redis_of_forget {k : K} {cell : RedisCell V} (h : (c.forget key).redis k = some cell) :
    c.redis k = some cell := by
  have hredis : Function.update c.redis key none k = some cell := h
  by_cases hk : k = key
  · subst hk
    simp at hredis
  · rwa [Function.update_of_ne hk] at hredis

end RedisCache

/-! ## The cache in tiers -/

/-- `TieredCacheAdapter`. -/
structure TieredCache (settings : CacheSettings) (K V : Type) where
  l1 : MemoryCache settings K V
  l2 : RedisCache settings.fallback K V

namespace TieredCache

variable {settings : CacheSettings} {K V : Type} [DecidableEq K] (c : TieredCache settings K V)
  (now : ℚ) (link : RedisLink) (key : K)

/-- A cache with no entries. -/
def new : TieredCache settings K V := ⟨.new, .new⟩

/-- `TieredCacheAdapter.get`: a value of the second tier is also set in the first, with the time
to live that the first one sets without being given any. -/
def get : Option V × TieredCache settings K V :=
  match c.l1.get now key with
  | (some v, l1) => (some v, { c with l1 })
  | (none, l1) =>
    match c.l2.get now link key with
    | (some v, l2) => (some v, { l1 := l1.set now key (some v) none, l2 })
    | (none, l2) => (none, { l1, l2 })

/-- `TieredCacheAdapter.set`. -/
def set (value : Option V) (ttl : Option ℤ) : TieredCache settings K V where
  l1 := c.l1.set now key value ttl
  l2 := c.l2.set now link key value ttl

/-- `TieredCacheAdapter.delete`. -/
def delete : Bool × TieredCache settings K V where
  fst := (c.l1.delete key).1 || (c.l2.delete link key).1
  snd := { l1 := (c.l1.delete key).2, l2 := (c.l2.delete link key).2 }

variable {c now link key} {v : V}

/-- A value is read from the first tier, or from the second where the first gives nothing. -/
theorem get_eq_some_iff : (c.get now link key).1 = some v ↔
    (c.l1.get now key).1 = some v ∨
      ((c.l1.get now key).1 = none ∧ (c.l2.get now link key).1 = some v) := by
  unfold get
  rcases c.l1.get now key with ⟨_ | w, l1⟩
  · rcases c.l2.get now link key with ⟨_ | w, l2⟩
    · simp
    · simp
  · simp

theorem redis_get : (c.get now link key).2.l2.redis = c.l2.redis := by
  unfold get
  rcases c.l1.get now key with ⟨_ | w, l1⟩
  · have hredis : (c.l2.get now link key).2.redis = c.l2.redis := RedisCache.redis_get
    revert hredis
    rcases c.l2.get now link key with ⟨_ | w, l2⟩
    · exact id
    · exact id
  · rfl

/-- A value of the second tier is set in the first. -/
theorem l1_get_of_copied (hmiss : (c.l1.get now key).1 = none)
    (hv : (c.l2.get now link key).1 = some v) :
    (c.get now link key).2.l1 = (c.l1.get now key).2.set now key (some v) none := by
  unfold get
  rcases hl1 : c.l1.get now key with ⟨_ | w, l1⟩
  · rcases hl2 : c.l2.get now link key with ⟨_ | w, l2⟩
    · simp [hl2] at hv
    · obtain rfl : w = v := by simpa [hl2] using hv
      rfl
  · simp [hl1] at hmiss

/-- Otherwise the first tier is only read. -/
theorem l1_get_of_not_copied
    (h : ¬((c.l1.get now key).1 = none ∧ ∃ v, (c.l2.get now link key).1 = some v)) :
    (c.get now link key).2.l1 = (c.l1.get now key).2 := by
  unfold get
  rcases hl1 : c.l1.get now key with ⟨_ | w, l1⟩
  · rcases hl2 : c.l2.get now link key with ⟨_ | w, l2⟩
    · rfl
    · simp [hl1, hl2] at h
  · rfl

end TieredCache

/-- An operation on a cache with what becomes of its commands, an eviction by Redis, or time that
passes. -/
inductive CacheMove (K V : Type)
  | set (key : K) (value : Option V) (ttl : Option ℤ) (link : RedisLink)
  | get (key : K) (link : RedisLink)
  | delete (key : K) (link : RedisLink)
  | forget (key : K)
  | tick (now : ℚ)

/-! ## The cache in memory drops what is least recently used -/

/-- A call of the adapter; what is read or set is so at a time. -/
inductive CacheCall (K V : Type)
  | get (now : ℚ) (key : K)
  | set (now : ℚ) (key : K) (value : Option V) (ttl : Option ℤ)
  | delete (key : K)

/-- What a call returns: a value, or whether it has done something. -/
inductive CacheAnswer (V : Type)
  | value (v : Option V)
  | done (b : Bool)

variable {settings : CacheSettings} {K V : Type} [DecidableEq K]

/-- A call of `MemoryCacheAdapter`. -/
def MemoryCache.call (c : MemoryCache settings K V) :
    CacheCall K V → CacheAnswer V × MemoryCache settings K V
  | .get now key => (.value (c.get now key).1, (c.get now key).2)
  | .set now key value ttl => (.done true, c.set now key value ttl)
  | .delete key => (.done (c.delete key).1, (c.delete key).2)

/-- A call of a map that drops what is least recently used.  An entry that has expired goes when it
is read; one that has not is used. -/
noncomputable def CacheSettings.lruCall (settings : CacheSettings) (m : LruMap K (CacheEntry V)) :
    CacheCall K V → CacheAnswer V × LruMap K (CacheEntry V)
  | .get now key =>
    match m.held key with
    | none => (.value none, m)
    | some e =>
      if e.isExpired now then (.value none, m.remove key) else (.value e.value, m.touch key)
  | .set now key value ttl =>
    (.done true, m.put settings.maxsize key ⟨value, now, settings.ttlOf ttl⟩)
  | .delete key => (.done (m.held key).isSome, m.remove key)

/-! ## One call -/

omit [DecidableEq K] in
/-- A full loop of evictions drops one entry at most. -/
theorem evictLoop_eq {maxsize n : ℕ} (hpos : 0 < maxsize) {cache : Dict K (CacheEntry V)}
    (hbound : cache.entries.length ≤ maxsize) (hn : cache.entries.length ≤ n) :
    evictLoop maxsize n cache =
      if maxsize ≤ cache.entries.length then cache.dropOldest else cache := by
  cases n with
  | zero =>
    have hroom : ¬maxsize ≤ cache.entries.length := by omega
    rw [evictLoop, if_neg hroom]
  | succ n =>
    rw [evictLoop]
    split_ifs with hfull
    · have hroom : ¬maxsize ≤ cache.dropOldest.entries.length := by
        rw [Dict.dropOldest, List.length_tail]
        omega
      cases n with
      | zero => rfl
      | succ n => rw [evictLoop, if_neg hroom]
    · rfl

namespace MemoryCache

variable {c : MemoryCache settings K V} {m : LruMap K (CacheEntry V)}

/-- The cache after `set`. -/
theorem cache_set (c : MemoryCache settings K V) (now : ℚ) (key : K) (value : Option V)
    (ttl : Option ℤ) :
    (c.set now key value ttl).cache =
      (if settings.maxsize ≤ (c.cache.erase key).entries.length
        then (c.cache.erase key).dropOldest else c.cache.erase key).set key
          ⟨value, now, settings.ttlOf ttl⟩ := by
  have hloop : (c.drop key).makeRoom = if settings.maxsize ≤ (c.cache.erase key).entries.length
      then (c.cache.erase key).dropOldest else c.cache.erase key :=
    evictLoop_eq settings.pos (c.drop key).bound le_rfl
  exact congrArg (fun d : Dict K (CacheEntry V) => d.set key _) hloop

/-- **One call** is answered alike, and the cache follows the map. -/
theorem tracks_call (h : LruMap.Tracks c.cache m) (call : CacheCall K V) :
    (c.call call).1 = (settings.lruCall m call).1 ∧
      LruMap.Tracks (c.call call).2.cache (settings.lruCall m call).2 := by
  cases call with
  | get now key =>
    have hread : c.entry key = m.held key := h.reads key
    simp only [MemoryCache.call, CacheSettings.lruCall, get]
    cases hentry : m.held key with
    | none =>
      rw [hread, hentry]
      exact ⟨rfl, h⟩
    | some e =>
      rw [hread, hentry]
      by_cases hexpired : e.isExpired now = true
      · simp only [hexpired, if_true]
        exact ⟨trivial, h.remove key⟩
      · have hmem : key ∈ c.cache.keys := h.mem_keys_iff.mp (by simp [LruMap.keys, hentry])
        simp only [hexpired]
        exact ⟨rfl, h.touch hmem⟩
  | set now key value ttl =>
    refine ⟨rfl, ?_⟩
    have hput := h.put (k := key) (v := ⟨value, now, settings.ttlOf ttl⟩) settings.pos
    simpa only [MemoryCache.call, CacheSettings.lruCall, cache_set] using hput
  | delete key =>
    have hread : c.entry key = m.held key := h.reads key
    refine ⟨?_, h.remove key⟩
    simp only [MemoryCache.call, CacheSettings.lruCall, delete, hread]

/-! ## Runs -/

/-- The answers to calls in a row, and the cache after them. -/
def calls (c : MemoryCache settings K V) : List (CacheCall K V) →
    List (CacheAnswer V) × MemoryCache settings K V
  | [] => ([], c)
  | call :: rest =>
    let later := (c.call call).2.calls rest
    ((c.call call).1 :: later.1, later.2)

end MemoryCache

/-- The answers of the map, and what it holds after the calls. -/
noncomputable def CacheSettings.lruCalls (settings : CacheSettings) (m : LruMap K (CacheEntry V)) :
    List (CacheCall K V) → List (CacheAnswer V) × LruMap K (CacheEntry V)
  | [] => ([], m)
  | call :: rest =>
    let later := settings.lruCalls (settings.lruCall m call).2 rest
    ((settings.lruCall m call).1 :: later.1, later.2)

namespace MemoryCache

theorem tracks_calls {c : MemoryCache settings K V} {m : LruMap K (CacheEntry V)}
    (h : LruMap.Tracks c.cache m) (l : List (CacheCall K V)) :
    (c.calls l).1 = (settings.lruCalls m l).1 ∧
      LruMap.Tracks (c.calls l).2.cache (settings.lruCalls m l).2 := by
  induction l generalizing c m with
  | nil => exact ⟨rfl, h⟩
  | cons call rest ih =>
    obtain ⟨hanswer, hnext⟩ := tracks_call h call
    obtain ⟨hanswers, hlater⟩ := ih hnext
    refine ⟨?_, hlater⟩
    simp only [calls, CacheSettings.lruCalls, hanswer, hanswers]

/-- **Every sequence of calls** is answered as by a map that drops the least recently used key;
afterwards the two hold the same, and no more entries than there is room for. -/
theorem simulates (settings : CacheSettings) (l : List (CacheCall K V)) :
    let c := (MemoryCache.new : MemoryCache settings K V).calls l
    let m := settings.lruCalls LruMap.empty l
    c.1 = m.1 ∧ (∀ key, c.2.entry key = m.2.held key) ∧
      c.2.cache.entries.length ≤ settings.maxsize := by
  obtain ⟨hanswers, htracks⟩ := tracks_calls (c := (new : MemoryCache settings K V))
    LruMap.Tracks.empty l
  exact ⟨hanswers, htracks.reads, ((new : MemoryCache settings K V).calls l).2.bound⟩

end MemoryCache

end WolfNas
