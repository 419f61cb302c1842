import WolfNas.Lib.Run
import WolfNas.Cache.Adapters
import Mathlib.Algebra.Order.Field.Basic
import Mathlib.Data.Rat.Cast.Order
import Mathlib.Order.WithBot

/-!
# Expiry in a cache of two tiers

A value that is read is not past the time to live of the last `set` of its key.  Copies of a key
are made by `set`, with that time to live, and by `get`, with the default one; and Redis keeps an
older copy where a `set` does not get there.

## Main definitions

* `TieredRun` — the cache, the time, and when the last `set` of each key ends.
* `TieredRun.Timely` — a value that is read has not expired.
* `TieredRun.Within` — no copy outlives the last `set` of its key.
* `TieredRun.Prompt` — the condition on an operation.

## Main results

* `TieredRun.timely_iff_within` — what can be read later, in terms of the copies.
* `TieredRun.within_step` — what one operation does to them.
* `TieredRun.forall_timely_iff` — no late value is read exactly where every operation meets the
  condition.
-/

namespace WolfNas

/-- A cache of two tiers, the time, and the last moment that the last `set` of a key gives. -/
structure TieredRun (settings : CacheSettings) (K V : Type) [DecidableEq K] where
  cache : TieredCache settings K V := .new
  now : ℚ := 0
  due : K → Option (WithTop ℚ) := fun _ => none

namespace TieredRun

variable {settings : CacheSettings} {K V : Type} [DecidableEq K]

/-- One move. -/
def step (st : TieredRun settings K V) : CacheMove K V → TieredRun settings K V
  | .set key value ttl link =>
    { st with
      cache := st.cache.set st.now link key value ttl
      due := Function.update st.due key (some (dueAt st.now (settings.ttlOf ttl))) }
  | .get key link => { st with cache := (st.cache.get st.now link key).2 }
  | .delete key link => { st with cache := (st.cache.delete link key).2 }
  | .forget key => { st with cache := { st.cache with l2 := st.cache.l2.forget key } }
  | .tick now => { st with now := max st.now now }

variable (st : TieredRun settings K V)

/-- A value that `get` returns at the time is not past the time to live of the last `set`. -/
def Timely (now : ℚ) (link : RedisLink) (key : K) : Prop :=
  ∀ v, (st.cache.get now link key).1 = some v → ∃ due ∈ st.due key, (now : WithTop ℚ) ≤ due

/-- The entry in the first tier does not outlive the last `set` of its key. -/
def WithinL1 (key : K) : Prop :=
  ∀ e, st.cache.l1.entry key = some e → e.value.isSome → (st.now : WithTop ℚ) ≤ e.due →
    ∃ due ∈ st.due key, e.due ≤ due

/-- The key in Redis does not outlive the last `set` of it. -/
def WithinRedis (key : K) : Prop :=
  ∀ cell, st.cache.l2.redis key = some cell → cell.value.isSome →
    (st.now : WithTop ℚ) < cell.expires → ∃ due ∈ st.due key, cell.expires ≤ due

/-- No copy that can be read outlives the last `set` of its key. -/
def Within : Prop := ∀ key, st.WithinL1 key ∧ st.WithinRedis key

/-- A `set` gets to Redis, or Redis has no value that outlives it; and a value that the second
tier gives is set in the first only where the default time to live ends no later than that of the
last `set`. -/
def Prompt (st : TieredRun settings K V) : CacheMove K V → Prop
  | .set key _ ttl link => link.sets (settings.ttlOf ttl) = false →
    ∀ cell, st.cache.l2.redis key = some cell → cell.value.isSome →
      (st.now : WithTop ℚ) < cell.expires → cell.expires ≤ dueAt st.now (settings.ttlOf ttl)
  | .get key link => (st.cache.l1.get st.now key).1 = none →
    ∀ v, (st.cache.l2.get st.now link key).1 = some v →
      (st.now : WithTop ℚ) ≤ dueAt st.now settings.defaultTtl →
        ∃ due ∈ st.due key, dueAt st.now settings.defaultTtl ≤ due
  | _ => True

variable {st}

/-! ## The memory behind Redis -/

/-- What the memory behind Redis has of a key is of the last `set`. -/
def Backed (st : TieredRun settings K V) : Prop :=
  ∀ key e, st.cache.l2.fallback.entry key = some e → ∃ due ∈ st.due key, e.due ≤ due

theorem backed_step (move : CacheMove K V) (h : st.Backed) : (st.step move).Backed := by
  cases move with
  | set key value ttl link =>
    intro k e he
    change (st.cache.l2.fallback.set st.now key value ttl).entry k = some e at he
    by_cases hk : k = key
    · subst hk
      rw [MemoryCache.entry_set_self] at he
      obtain rfl := Option.some.inj he
      exact ⟨_, Function.update_self _ _ _, le_rfl⟩
    · obtain ⟨due, hdue, hle⟩ := h k e (MemoryCache.entry_of_set he hk)
      exact ⟨due, (Function.update_of_ne hk _ _).trans hdue, hle⟩
  | get key link =>
    intro k e he
    refine h k e ?_
    change (st.cache.get st.now link key).2.l2.fallback.entry k = some e at he
    unfold TieredCache.get at he
    split at he
    · exact he
    · split at he
      · rename_i v l2 hl2
        have heq : l2 = (st.cache.l2.get st.now link key).2 := by rw [hl2]
        subst heq
        exact RedisCache.fallback_entry_of_get he
      · rename_i l2 hl2
        have heq : l2 = (st.cache.l2.get st.now link key).2 := by rw [hl2]
        subst heq
        exact RedisCache.fallback_entry_of_get he
  | delete key link =>
    intro k e he
    refine h k e ?_
    change (st.cache.l2.fallback.drop key).entry k = some e at he
    rw [MemoryCache.entry_drop] at he
    split_ifs at he
    exact he
  | forget key => exact h
  | tick now => exact h

/-! ## What can be read later -/

theorem exists_before {now : ℚ} {due e : WithTop ℚ} (hnow : (now : WithTop ℚ) < e) (hdue : due < e) :
    ∃ t : ℚ, now ≤ t ∧ due < t ∧ (t : WithTop ℚ) < e := by
  obtain ⟨t, hlt, hte⟩ := exists_between (max_lt hnow hdue)
  obtain ⟨q, rfl⟩ := WithTop.ne_top_iff_exists.mp (ne_top_of_lt hte)
  refine ⟨q, ?_, (le_max_right _ _).trans_lt hlt, hte⟩
  exact WithTop.coe_le_coe.mp ((le_max_left _ _).trans hlt.le)

theorem exists_until {now : ℚ} {due e : WithTop ℚ} (hnow : (now : WithTop ℚ) ≤ e) (hdue : due < e) :
    ∃ t : ℚ, now ≤ t ∧ due < t ∧ (t : WithTop ℚ) ≤ e := by
  cases e with
  | top =>
    obtain ⟨t, hle, hlt, hte⟩ := exists_before (WithTop.coe_lt_top now) hdue
    exact ⟨t, hle, hlt, hte.le⟩
  | coe x => exact ⟨x, WithTop.coe_le_coe.mp hnow, hdue, le_rfl⟩

/-- What is read at a later time is timely exactly where no copy outlives the last `set` of its
key. -/
theorem timely_iff_within (hbacked : st.Backed) :
    (∀ now, st.now ≤ now → ∀ link key, st.Timely now link key) ↔ st.Within := by
  constructor
  · intro h key
    constructor
    · intro e he hvalue hlive
      obtain ⟨v, hv⟩ := Option.isSome_iff_exists.mp hvalue
      have hread : ∀ t : ℚ, st.now ≤ t → (t : WithTop ℚ) ≤ e.due →
          ∃ due ∈ st.due key, (t : WithTop ℚ) ≤ due := by
        intro t hle hte
        refine h t hle .down key v ?_
        exact TieredCache.get_eq_some_iff.mpr (.inl (MemoryCache.get_eq_some_iff.mpr ⟨e, he, hv, hte⟩))
      obtain ⟨due, hdue, -⟩ := hread st.now le_rfl hlive
      refine ⟨due, hdue, ?_⟩
      by_contra hlate
      obtain ⟨t, hle, hlt, hte⟩ := exists_until hlive (not_le.mp hlate)
      obtain ⟨due', hdue', hle'⟩ := hread t hle hte
      obtain rfl := Option.some.inj (hdue.symm.trans hdue')
      exact absurd hlt (not_lt.mpr hle')
    · intro cell hcell hvalue hlive
      obtain ⟨v, hv⟩ := Option.isSome_iff_exists.mp hvalue
      have hread : ∀ t : ℚ, st.now ≤ t → (t : WithTop ℚ) < cell.expires →
          ∃ due ∈ st.due key, (t : WithTop ℚ) ≤ due := by
        intro t hle hte
        have hl2 : (st.cache.l2.get t .answered key).1 = some v :=
          RedisCache.get_eq_some_iff.mpr
            (.inl ⟨cell, RedisCache.fetch_eq_some_iff.mpr ⟨rfl, hcell, hte⟩, hv⟩)
        cases hl1 : (st.cache.l1.get t key).1 with
        | none => exact h t hle .answered key v (TieredCache.get_eq_some_iff.mpr (.inr ⟨hl1, hl2⟩))
        | some w => exact h t hle .answered key w (TieredCache.get_eq_some_iff.mpr (.inl hl1))
      obtain ⟨due, hdue, -⟩ := hread st.now le_rfl hlive
      refine ⟨due, hdue, ?_⟩
      by_contra hlate
      obtain ⟨t, hle, hlt, hte⟩ := exists_before hlive (not_le.mp hlate)
      obtain ⟨due', hdue', hle'⟩ := hread t hle hte
      obtain rfl := Option.some.inj (hdue.symm.trans hdue')
      exact absurd hlt (not_lt.mpr hle')
  · intro h t hle link key v hv
    have hcoe : (st.now : WithTop ℚ) ≤ t := WithTop.coe_le_coe.mpr hle
    rcases TieredCache.get_eq_some_iff.mp hv with hl1 | ⟨-, hl2⟩
    · obtain ⟨e, he, hvalue, hte⟩ := MemoryCache.get_eq_some_iff.mp hl1
      obtain ⟨due, hdue, hedue⟩ := (h key).1 e he (by simp [hvalue]) (hcoe.trans hte)
      exact ⟨due, hdue, hte.trans hedue⟩
    · rcases RedisCache.get_eq_some_iff.mp hl2 with ⟨cell, hfetch, hvalue⟩ | ⟨-, hmemory⟩
      · obtain ⟨-, hcell, hte⟩ := RedisCache.fetch_eq_some_iff.mp hfetch
        obtain ⟨due, hdue, hcdue⟩ := (h key).2 cell hcell (by simp [hvalue]) (hcoe.trans_lt hte)
        exact ⟨due, hdue, hte.le.trans hcdue⟩
      · obtain ⟨e, he, -, hte⟩ := MemoryCache.get_eq_some_iff.mp hmemory
        obtain ⟨due, hdue, hedue⟩ := hbacked key e he
        exact ⟨due, hdue, hte.trans hedue⟩

/-! ## One operation -/

theorem within_set {key : K} {value : Option V} {ttl : Option ℤ} {link : RedisLink}
    (h : st.Within) (hprompt : st.Prompt (.set key value ttl link)) :
    (st.step (.set key value ttl link)).Within := by
  intro k
  by_cases hk : k = key
  · subst hk
    have hdue : (st.step (.set k value ttl link)).due k =
        some (dueAt st.now (settings.ttlOf ttl)) := Function.update_self _ _ _
    constructor
    · intro e he _ _
      rw [show e = ⟨value, st.now, settings.ttlOf ttl⟩ from
        (Option.some.inj ((MemoryCache.entry_set_self value ttl).symm.trans he)).symm]
      exact ⟨_, hdue, le_rfl⟩
    · intro cell hcell hvalue hlive
      refine ⟨_, hdue, ?_⟩
      rcases RedisCache.redis_of_set hcell with ⟨-, rfl⟩ | ⟨hfree, hcell⟩
      · exact le_rfl
      · exact hprompt (hfree rfl) cell hcell hvalue hlive
  · have hdue : (st.step (.set key value ttl link)).due k = st.due k := Function.update_of_ne hk _ _
    constructor
    · intro e he
      rw [hdue]
      exact (h k).1 e (MemoryCache.entry_of_set he hk)
    · intro cell hcell
      rw [hdue]
      rcases RedisCache.redis_of_set hcell with ⟨heq, -⟩ | ⟨-, hcell⟩
      · exact absurd heq hk
      · exact (h k).2 cell hcell

/-- **One `set`**: no copy outlives the last `set` of its key exactly where it gets to Redis, or
Redis has no value that outlives it. -/
theorem within_set_iff {key : K} {value : Option V} {ttl : Option ℤ} {link : RedisLink}
    (h : st.Within) : (st.step (.set key value ttl link)).Within ↔
      st.Prompt (.set key value ttl link) := by
  refine ⟨?_, within_set h⟩
  intro hafter hfree cell hcell hvalue hlive
  have hkept : (st.step (.set key value ttl link)).cache.l2.redis key = some cell := by
    change (if link.sets (settings.ttlOf ttl) then Function.update st.cache.l2.redis key _
      else st.cache.l2.redis) key = some cell
    rw [hfree]
    exact hcell
  obtain ⟨due, hdue, hle⟩ := (hafter key).2 cell hkept hvalue hlive
  have hnew : (st.step (.set key value ttl link)).due key =
      some (dueAt st.now (settings.ttlOf ttl)) := Function.update_self _ _ _
  obtain rfl := Option.some.inj (hnew.symm.trans hdue)
  exact hle

/-- **One `get`**: no copy outlives the last `set` of its key exactly where none is made that
does. -/
theorem within_get_iff {key : K} {link : RedisLink} (h : st.Within) :
    (st.step (.get key link)).Within ↔ st.Prompt (.get key link) := by
  have hredis : (st.step (.get key link)).cache.l2.redis = st.cache.l2.redis :=
    TieredCache.redis_get
  by_cases hcopied : (st.cache.l1.get st.now key).1 = none ∧
      ∃ v, (st.cache.l2.get st.now link key).1 = some v
  · obtain ⟨hmiss, v, hv⟩ := hcopied
    have hl1 : (st.step (.get key link)).cache.l1 =
        (st.cache.l1.get st.now key).2.set st.now key (some v) none :=
      TieredCache.l1_get_of_copied hmiss hv
    have hself : (st.step (.get key link)).cache.l1.entry key =
        some ⟨some v, st.now, settings.defaultTtl⟩ := by
      rw [hl1]
      exact MemoryCache.entry_set_self _ _
    constructor
    · intro hafter _ _ _ hlive
      exact (hafter key).1 _ hself rfl hlive
    · intro hprompt k
      refine ⟨?_, fun cell hcell => (h k).2 cell (hredis ▸ hcell)⟩
      intro e he hvalue hlive
      by_cases hk : k = key
      · subst hk
        obtain rfl := Option.some.inj (hself.symm.trans he)
        exact hprompt hmiss v hv hlive
      · rw [hl1] at he
        exact (h k).1 e (MemoryCache.entry_of_get (MemoryCache.entry_of_set he hk)) hvalue hlive
  · have hprompt : st.Prompt (.get key link) := by
      intro hmiss v hv
      exact absurd ⟨hmiss, v, hv⟩ hcopied
    refine iff_of_true ?_ hprompt
    intro k
    refine ⟨?_, fun cell hcell => (h k).2 cell (hredis ▸ hcell)⟩
    intro e he
    have hl1 : (st.step (.get key link)).cache.l1 = (st.cache.l1.get st.now key).2 :=
      TieredCache.l1_get_of_not_copied hcopied
    rw [hl1] at he
    exact (h k).1 e (MemoryCache.entry_of_get he)

/-- **One move**: still no copy outlives the last `set` of its key exactly where the move meets
the condition. -/
theorem within_step (move : CacheMove K V) (h : st.Within) :
    (st.step move).Within ↔ st.Prompt move := by
  cases move with
  | set key value ttl link => exact within_set_iff h
  | get key link => exact within_get_iff h
  | delete key link =>
    refine iff_of_true (fun k => ⟨fun e he => ?_, fun cell hcell => ?_⟩) trivial
    · change (st.cache.l1.drop key).entry k = some e at he
      rw [MemoryCache.entry_drop] at he
      split_ifs at he
      exact (h k).1 e he
    · exact (h k).2 cell (RedisCache.redis_of_delete hcell)
  | forget key =>
    refine iff_of_true (fun k => ⟨(h k).1, fun cell hcell => ?_⟩) trivial
    exact (h k).2 cell (RedisCache.redis_of_forget hcell)
  | tick now =>
    have hle : (st.now : WithTop ℚ) ≤ ((max st.now now : ℚ) : WithTop ℚ) :=
      WithTop.coe_le_coe.mpr (le_max_left _ _)
    refine iff_of_true (fun k => ⟨fun e he hvalue hlive => ?_, fun cell hcell hvalue hlive => ?_⟩)
      trivial
    · exact (h k).1 e he hvalue (hle.trans hlive)
    · exact (h k).2 cell hcell hvalue (hle.trans_lt hlive)

/-! ## Runs -/

/-- **Expiry**: at any time after any move of a run, a `get` returns no value whose last `set` has
expired, exactly where every move of the run meets the condition. -/
theorem forall_timely_iff (moves : List (CacheMove K V)) :
    (∀ n now, (Run.stateAt step ({} : TieredRun settings K V) moves n).now ≤ now → ∀ link key,
      (Run.stateAt step ({} : TieredRun settings K V) moves n).Timely now link key) ↔
        Run.Along step Prompt ({} : TieredRun settings K V) moves := by
  have hbacked : ∀ n, (Run.stateAt step ({} : TieredRun settings K V) moves n).Backed := by
    intro n
    refine Run.invariant Backed ?_ fun st h move _ => backed_step move h
    intro key e he
    cases he
  have hstart : ({} : TieredRun settings K V).Within := by
    intro key
    constructor
    · intro e he
      cases he
    · intro cell hcell
      cases hcell
  have hwithin : (∀ n now, (Run.stateAt step ({} : TieredRun settings K V) moves n).now ≤ now →
      ∀ link key, (Run.stateAt step ({} : TieredRun settings K V) moves n).Timely now link key) ↔
        ∀ n, (Run.stateAt step ({} : TieredRun settings K V) moves n).Within :=
    forall_congr' fun n => timely_iff_within (hbacked n)
  rw [hwithin]
  refine (Run.along_step_iff Within).trans ?_
  rw [and_iff_right hstart]
  refine Run.along_congr_of_kept Within ?_ ?_ hstart
  · intro st move h
    exact within_step move h
  · intro st move _ hafter
    exact hafter

/-- A first tier with room for one entry, and no default time to live. -/
def oneEntry : CacheSettings := ⟨1, by decide, none⟩

/-- The entry is evicted from the first tier, and copied back from Redis before it expires. -/
def copiedBack : List (CacheMove ℕ ℕ) :=
  [.set 1 (some 7) (some 60) .answered, .set 2 (some 8) (some 60) .answered, .tick 30,
    .get 1 .answered, .tick 100]

/-- The value is read after its time to live. -/
theorem copiedBack_late : ¬∀ moves : List (CacheMove ℕ ℕ), ∀ n now,
    (Run.stateAt step ({} : TieredRun oneEntry ℕ ℕ) moves n).now ≤ now → ∀ link key,
      (Run.stateAt step ({} : TieredRun oneEntry ℕ ℕ) moves n).Timely now link key := by
  intro h
  have hnow : (Run.stateAt step ({} : TieredRun oneEntry ℕ ℕ) copiedBack 5).now ≤ 100 := by
    decide +kernel
  have hread : ((Run.stateAt step ({} : TieredRun oneEntry ℕ ℕ) copiedBack 5).cache.get 100
      .answered 1).1 = some 7 := by decide +kernel
  have hdue : (Run.stateAt step ({} : TieredRun oneEntry ℕ ℕ) copiedBack 5).due 1 =
      some ((60 : ℚ) : WithTop ℚ) := by decide +kernel
  obtain ⟨due, hdue', hle⟩ := h copiedBack 5 100 hnow .answered 1 7 hread
  obtain rfl := Option.some.inj (hdue.symm.trans hdue')
  exact absurd (WithTop.coe_le_coe.mp hle) (by norm_num)

end TieredRun

end WolfNas
