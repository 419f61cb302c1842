import WolfNas.Lib.Run
import WolfNas.Cache.Adapters

/-!
# A Redis cache and its outages

A value that is read is that of the last `set` of its key, and there is none after a `delete`.
The memory behind Redis always follows; Redis keeps what it has where an operation does not get
there.

## Main definitions

* `RedisRun` — the cache, the time, and the value that each key was set to last.
* `RedisRun.Current` — a value that is read is the last one.
* `RedisRun.Fresh` — the values in Redis are the last ones.
* `RedisRun.Arrives` — the condition on an operation.

## Main results

* `RedisRun.current_iff_fresh` — what can be read later, in terms of Redis.
* `RedisRun.fresh_step` — what one operation does to it.
* `RedisRun.forall_current_iff` — no old value is read exactly where every operation meets the
  condition.
-/

namespace WolfNas

/-- A Redis cache, the time, and the value of each key: what the last `set` gave, and none after
a `delete`. -/
structure RedisRun (settings : CacheSettings) (K V : Type) [DecidableEq K] where
  cache : RedisCache settings K V := .new
  now : ℚ := 0
  last : K → Option V := fun _ => none

namespace RedisRun

variable {settings : CacheSettings} {K V : Type} [DecidableEq K]

/-- One move. -/
def step (st : RedisRun settings K V) : CacheMove K V → RedisRun settings K V
  | .set key value ttl link =>
    { st with
      cache := st.cache.set st.now link key value ttl
      last := Function.update st.last key value }
  | .get key link => { st with cache := (st.cache.get st.now link key).2 }
  | .delete key link =>
    { st with
      cache := (st.cache.delete link key).2
      last := Function.update st.last key none }
  | .forget key => { st with cache := st.cache.forget key }
  | .tick now => { st with now := max st.now now }

variable (st : RedisRun settings K V)

/-- A value that `get` returns at the time is the last one. -/
def Current (now : ℚ) (link : RedisLink) (key : K) : Prop :=
  ∀ v, (st.cache.get now link key).1 = some v → st.last key = some v

/-- A value of the key in Redis is the value. -/
def Has (key : K) (value : Option V) : Prop :=
  ∀ cell, st.cache.redis key = some cell → cell.value.isSome →
    (st.now : WithTop ℚ) < cell.expires → value = cell.value

/-- The values in Redis are the last ones. -/
def Fresh : Prop := ∀ key, st.Has key (st.last key)

/-- The operation gets to Redis, or Redis has no other value of the key. -/
def Arrives (st : RedisRun settings K V) : CacheMove K V → Prop
  | .set key value ttl link => link.sets (settings.ttlOf ttl) = false → st.Has key value
  | .delete key link => link.reaches = false → st.Has key none
  | _ => True

variable {st}

/-! ## The memory behind Redis -/

/-- The values in memory are the last ones. -/
def Followed (st : RedisRun settings K V) : Prop :=
  ∀ key e, st.cache.fallback.entry key = some e → st.last key = e.value

theorem followed_step (move : CacheMove K V) (h : st.Followed) : (st.step move).Followed := by
  cases move with
  | set key value ttl link =>
    intro k e he
    change (st.cache.fallback.set st.now key value ttl).entry k = some e at he
    by_cases hk : k = key
    · subst hk
      rw [MemoryCache.entry_set_self] at he
      obtain rfl := Option.some.inj he
      exact Function.update_self _ _ _
    · exact (Function.update_of_ne hk _ _).trans (h k e (MemoryCache.entry_of_set he hk))
  | get key link =>
    intro k e he
    exact h k e (RedisCache.fallback_entry_of_get he)
  | delete key link =>
    intro k e he
    change (st.cache.fallback.drop key).entry k = some e at he
    rw [MemoryCache.entry_drop] at he
    split_ifs at he with hk
    exact (Function.update_of_ne hk _ _).trans (h k e he)
  | forget key => exact h
  | tick now => exact h

/-! ## What can be read later -/

/-- What is read at a later time is current exactly where the values in Redis are. -/
theorem current_iff_fresh (hfollowed : st.Followed) :
    (∀ now, st.now ≤ now → ∀ link key, st.Current now link key) ↔ st.Fresh := by
  constructor
  · intro h key cell hcell hvalue hlive
    obtain ⟨v, hv⟩ := Option.isSome_iff_exists.mp hvalue
    rw [hv]
    refine h st.now le_rfl .answered key v (RedisCache.get_eq_some_iff.mpr (.inl ⟨cell, ?_, hv⟩))
    exact RedisCache.fetch_eq_some_iff.mpr ⟨rfl, hcell, hlive⟩
  · intro h now hle link key v hv
    rcases RedisCache.get_eq_some_iff.mp hv with ⟨cell, hfetch, hvalue⟩ | ⟨-, hmemory⟩
    · obtain ⟨-, hcell, hlive⟩ := RedisCache.fetch_eq_some_iff.mp hfetch
      have hsome : cell.value.isSome := by simp [hvalue]
      exact (h key cell hcell hsome ((WithTop.coe_le_coe.mpr hle).trans_lt hlive)).trans hvalue
    · obtain ⟨e, he, hvalue, -⟩ := MemoryCache.get_eq_some_iff.mp hmemory
      exact (hfollowed key e he).trans hvalue

/-! ## One operation -/

/-- **One `set`**: the values in Redis are still the last ones exactly where it gets there, or
Redis has no other value of the key. -/
theorem fresh_set_iff {key : K} {value : Option V} {ttl : Option ℤ} {link : RedisLink}
    (h : st.Fresh) : (st.step (.set key value ttl link)).Fresh ↔
      st.Arrives (.set key value ttl link) := by
  have hlast : ∀ k, (st.step (.set key value ttl link)).last k =
      if k = key then value else st.last k := Function.update_apply st.last key value
  constructor
  · intro hafter hfree cell hcell hvalue hlive
    have hkept : (st.step (.set key value ttl link)).cache.redis key = some cell := by
      change (if link.sets (settings.ttlOf ttl) then Function.update st.cache.redis key _
        else st.cache.redis) key = some cell
      rw [hfree]
      exact hcell
    have hcurrent := hafter key cell hkept hvalue hlive
    rwa [hlast, if_pos rfl] at hcurrent
  · intro harrives k cell hcell hvalue hlive
    rw [hlast]
    rcases RedisCache.redis_of_set hcell with ⟨rfl, rfl⟩ | ⟨hfree, hbefore⟩
    · exact if_pos rfl
    · split_ifs with hk
      · subst hk
        exact harrives (hfree rfl) cell hbefore hvalue hlive
      · exact h k cell hbefore hvalue hlive

/-- **One `delete`**: the same, where Redis has no value of the key. -/
theorem fresh_delete_iff {key : K} {link : RedisLink} (h : st.Fresh) :
    (st.step (.delete key link)).Fresh ↔ st.Arrives (.delete key link) := by
  have hlast : ∀ k, (st.step (.delete key link)).last k =
      if k = key then none else st.last k := Function.update_apply st.last key none
  constructor
  · intro hafter hfree cell hcell hvalue hlive
    have hkept : (st.step (.delete key link)).cache.redis key = some cell := by
      change (if link.reaches then Function.update st.cache.redis key none
        else st.cache.redis) key = some cell
      rw [hfree]
      exact hcell
    have hcurrent := hafter key cell hkept hvalue hlive
    rwa [hlast, if_pos rfl] at hcurrent
  · intro harrives k cell hcell hvalue hlive
    rw [hlast]
    have hbefore := RedisCache.redis_of_delete hcell
    split_ifs with hk
    · subst hk
      have hfree : link.reaches = false := by
        by_contra hreaches
        have hgone : (st.step (.delete k link)).cache.redis k = none := by
          change (if link.reaches then Function.update st.cache.redis k none
            else st.cache.redis) k = none
          rw [if_pos (by simpa using hreaches), Function.update_self]
        exact absurd (hcell.symm.trans hgone) (by simp)
      exact harrives hfree cell hbefore hvalue hlive
    · exact h k cell hbefore hvalue hlive

/-- **One move**: the values in Redis are still the last ones exactly where the move meets the
condition. -/
theorem fresh_step (move : CacheMove K V) (h : st.Fresh) :
    (st.step move).Fresh ↔ st.Arrives move := by
  cases move with
  | set key value ttl link => exact fresh_set_iff h
  | get key link =>
    refine iff_of_true (fun k cell hcell => ?_) trivial
    exact h k cell (RedisCache.redis_get (c := st.cache) ▸ hcell)
  | delete key link => exact fresh_delete_iff h
  | forget key =>
    refine iff_of_true (fun k cell hcell => ?_) trivial
    exact h k cell (RedisCache.redis_of_forget hcell)
  | tick now =>
    refine iff_of_true (fun k cell hcell hvalue hlive => ?_) trivial
    exact h k cell hcell hvalue ((WithTop.coe_le_coe.mpr (le_max_left _ _)).trans_lt hlive)

/-! ## Runs -/

/-- **Outages**: at any time after any move of a run, a `get` returns the last value of its key or
none, exactly where every move of the run meets the condition. -/
theorem forall_current_iff (moves : List (CacheMove K V)) :
    (∀ n now, (Run.stateAt step ({} : RedisRun settings K V) moves n).now ≤ now → ∀ link key,
      (Run.stateAt step ({} : RedisRun settings K V) moves n).Current now link key) ↔
        Run.Along step Arrives ({} : RedisRun settings K V) moves := by
  have hfollowed : ∀ n, (Run.stateAt step ({} : RedisRun settings K V) moves n).Followed := by
    intro n
    refine Run.invariant Followed ?_ fun st h move _ => followed_step move h
    intro key e he
    cases he
  have hstart : ({} : RedisRun settings K V).Fresh := by
    intro key cell hcell
    cases hcell
  have hfresh : (∀ n now, (Run.stateAt step ({} : RedisRun settings K V) moves n).now ≤ now →
      ∀ link key, (Run.stateAt step ({} : RedisRun settings K V) moves n).Current now link key) ↔
        ∀ n, (Run.stateAt step ({} : RedisRun settings K V) moves n).Fresh :=
    forall_congr' fun n => current_iff_fresh (hfollowed n)
  rw [hfresh]
  refine (Run.along_step_iff Fresh).trans ?_
  rw [and_iff_right hstart]
  refine Run.along_congr_of_kept Fresh ?_ ?_ hstart
  · intro st move h
    exact fresh_step move h
  · intro st move _ hafter
    exact hafter

/-- The settings of a Redis cache without a default time to live. -/
def plainRedisCache : CacheSettings := ⟨2000, fallback_size_pos, none⟩

/-- Redis is away when the key is deleted. -/
def deletedInOutage : List (CacheMove ℕ ℕ) :=
  [.set 1 (some 7) none .answered, .delete 1 .down]

/-- The deleted value is read once Redis is back. -/
theorem deletedInOutage_read : ¬∀ moves : List (CacheMove ℕ ℕ), ∀ n now,
    (Run.stateAt step ({} : RedisRun plainRedisCache ℕ ℕ) moves n).now ≤ now → ∀ link key,
      (Run.stateAt step ({} : RedisRun plainRedisCache ℕ ℕ) moves n).Current now link key := by
  intro h
  have hnow : (Run.stateAt step ({} : RedisRun plainRedisCache ℕ ℕ) deletedInOutage 2).now ≤ 0 := by
    decide +kernel
  have hread : ((Run.stateAt step ({} : RedisRun plainRedisCache ℕ ℕ) deletedInOutage 2).cache.get 0
      .answered 1).1 = some 7 := by decide +kernel
  have hlast : (Run.stateAt step ({} : RedisRun plainRedisCache ℕ ℕ) deletedInOutage 2).last 1 =
      none := by decide +kernel
  exact absurd ((h deletedInOutage 2 0 hnow .answered 1 7 hread).symm.trans hlast) (by simp)

end RedisRun

end WolfNas
