import WolfNas.Lib.Run
import WolfNas.Lock.Stores

/-!
# Locks of two stores

The lock manager makes a Redis lock where Redis answers at that moment, and a database lock where
it does not.  Each store grants a name once; a name is held twice where one store grants it while
it is held in the other.

## Main definitions

* `LockObject`, `LockWorld` — the lock objects, and the two stores.
* `LockWorld.acquire`, `LockWorld.release`, `LockWorld.extend` — the calls of a lock object.
* `LockMove`, `LockWorld.step` — one call, or time.
* `LockWorld.Holds` — a lock object holds an unexpired lock.
* `LockWorld.gains` — the lock object that comes to hold one.
* `LockWorld.Apart` — it is not held in the other store.

## Main results

* `LockWorld.holds_step` — what is held after a move was held before, or is gained.
* `LockWorld.exclusive_iff` — a name is held once at any time exactly where it is never gained
  while it is held in the other store.
-/

namespace WolfNas

open Text

/-- Where a lock is kept. -/
inductive LockBackend
  | redis | database
  deriving DecidableEq

/-- A lock object; its token is its number. -/
structure LockObject where
  key : Text
  ttlSeconds : ℤ
  backend : LockBackend
  owned : Bool := false
  deriving DecidableEq

/-- What becomes of a call on a store: it is answered, it does not get there, or its answer is
lost. -/
inductive StoreAnswer
  | answered | lost | unanswered
  deriving DecidableEq

/-- The lock objects of all processes, and the stores. -/
structure LockWorld where
  now : ℚ := 0
  redis : RedisLocks := fun _ => none
  db : DbLocks := fun _ => none
  locks : List LockObject := []

/-- A call on a lock, or time that passes. -/
inductive LockMove
  | create (key : Text) (ttlSeconds : ℤ) (ping : Bool)
  | acquire (i : ℕ) (answer : StoreAnswer)
  | release (i : ℕ) (answer : StoreAnswer)
  | extend (i : ℕ) (seconds : ℤ) (answer : StoreAnswer)
  | tick (now : ℚ)

namespace LockWorld

variable (st : LockWorld)

/-- The token of the unexpired lock of a name in a store. -/
def owner : LockBackend → Text → Option ℕ
  | .redis, key => st.redis.owner st.now key
  | .database, key => st.db.owner st.now key

/-- `LockManager.create_lock`. -/
def createLock (key : Text) (ttlSeconds : ℤ) (ping : Bool) : LockWorld :=
  let backend := if ping then .redis else .database
  { st with locks := st.locks ++ [{ key, ttlSeconds, backend }] }

/-- The store after an attempt to set the lock; none where it is refused. -/
def grant (i : ℕ) (x : LockObject) : Option LockWorld :=
  match x.backend with
  | .redis => (st.redis.setNx st.now x.key i x.ttlSeconds).map fun redis => { st with redis }
  | .database => (st.db.acquire st.now x.key i x.ttlSeconds).map fun db => { st with db }

/-- `acquire`. -/
def acquire (i : ℕ) (x : LockObject) (answer : StoreAnswer) : LockWorld :=
  match answer, st.grant i x with
  | .lost, _ | _, none => st
  | .answered, some st => { st with locks := st.locks.set i { x with owned := true } }
  | .unanswered, some st => st

/-- The stores after a release. -/
def unset (i : ℕ) (x : LockObject) (answer : StoreAnswer) : LockWorld :=
  match answer, x.backend with
  | .lost, _ => st
  | _, .redis => { st with redis := st.redis.release st.now x.key i }
  | _, .database => { st with db := st.db.release x.key i }

/-- `release`. -/
def release (i : ℕ) (x : LockObject) (answer : StoreAnswer) : LockWorld :=
  if x.owned then
    { st.unset i x answer with locks := st.locks.set i { x with owned := false } }
  else st

/-- `extend`. -/
def extend (i : ℕ) (x : LockObject) (seconds : ℤ) (answer : StoreAnswer) : LockWorld :=
  if x.owned ∧ answer ≠ .lost then
    match x.backend with
    | .redis => { st with redis := st.redis.extend st.now x.key i seconds }
    | .database => { st with db := st.db.extend st.now x.key i seconds }
  else st

/-- One move. -/
def step (st : LockWorld) : LockMove → LockWorld
  | .create key ttlSeconds ping => st.createLock key ttlSeconds ping
  | .acquire i answer => (st.locks[i]?).elim st fun x => st.acquire i x answer
  | .release i answer => (st.locks[i]?).elim st fun x => st.release i x answer
  | .extend i seconds answer => (st.locks[i]?).elim st fun x => st.extend i x seconds answer
  | .tick now => { st with now := max st.now now }

/-- The lock object holds an unexpired lock of the name. -/
def Holds (i : ℕ) (key : Text) : Prop :=
  ∃ x ∈ st.locks[i]?, x.key = key ∧ x.owned ∧ st.owner x.backend key = some i

instance (i : ℕ) (key : Text) : Decidable (st.Holds i key) := by
  unfold Holds
  infer_instance

/-- No name is held by two lock objects. -/
def Exclusive : Prop := ∀ i j key, st.Holds i key → st.Holds j key → i = j

/-- The name is held in the store. -/
def HeldIn (backend : LockBackend) (key : Text) : Prop :=
  ∃ j ∈ st.owner backend key, ∃ y ∈ st.locks[j]?, y.owned

instance (backend : LockBackend) (key : Text) : Decidable (st.HeldIn backend key) := by
  unfold HeldIn
  infer_instance

/-- The other store. -/
def other : LockBackend → LockBackend
  | .redis => .database
  | .database => .redis

/-- A lock with this time to live has not expired when it is granted. -/
def lasts (backend : LockBackend) (ttlSeconds : ℤ) : Bool :=
  match backend with
  | .redis => 0 < ttlSeconds
  | .database => 0 ≤ ttlSeconds

/-- The lock object that comes to hold a lock: it is granted a name that is free in its store, or
extends a row that has expired. -/
def gains : LockMove → Option ℕ
  | .acquire i answer => (st.locks[i]?).bind fun x =>
    if answer ≠ .lost ∧ (x.owned ∨ answer = .answered) ∧ st.owner x.backend x.key = none ∧
      lasts x.backend x.ttlSeconds then some i else none
  | .extend i seconds answer => (st.locks[i]?).bind fun x =>
    if answer ≠ .lost ∧ x.owned ∧ x.backend = .database ∧ st.db.owner st.now x.key = none ∧
      (st.db x.key).map Prod.fst = some i ∧ 0 ≤ seconds then some i else none
  | _ => none

/-- The name of a lock that is gained is not held in the other store. -/
def Apart (st : LockWorld) (move : LockMove) : Prop :=
  ∀ i ∈ st.gains move, ∀ x ∈ st.locks[i]?, ¬st.HeldIn (other x.backend) x.key

instance (st : LockWorld) (move : LockMove) : Decidable (st.Apart move) := by
  unfold Apart
  infer_instance

variable {st} {i : ℕ} {x : LockObject} {answer : StoreAnswer} {key : Text}

/-! ## Tokens -/

/-- The token of an unexpired lock is that of a lock object of its name and store. -/
def Tokened (st : LockWorld) : Prop :=
  ∀ backend key t, st.owner backend key = some t →
    ∃ y, st.locks[t]? = some y ∧ y.backend = backend ∧ y.key = key

/-- A lock is granted by the store of its object, under its name. -/
theorem grant_spec {st' : LockWorld} (h : st.grant i x = some st') :
    st'.locks = st.locks ∧ st'.now = st.now ∧ st.owner x.backend x.key = none ∧
      ∀ backend key, st'.owner backend key =
        if backend = x.backend ∧ key = x.key then
          if lasts x.backend x.ttlSeconds then some i else none
        else st.owner backend key := by
  obtain ⟨name, ttl, backend, owned⟩ := x
  cases backend with
  | redis =>
    obtain ⟨redis, hset, rfl⟩ := Option.map_eq_some_iff.mp h
    obtain ⟨hpos, hfree, howner⟩ := RedisLocks.owner_setNx hset
    refine ⟨rfl, rfl, hfree, ?_⟩
    intro b k
    cases b with
    | redis => simpa [owner, lasts, hpos] using howner k
    | database => simp [owner]
  | database =>
    obtain ⟨db, hacquire, rfl⟩ := Option.map_eq_some_iff.mp h
    obtain ⟨hfree, howner⟩ := DbLocks.owner_acquire hacquire
    refine ⟨rfl, rfl, hfree, ?_⟩
    intro b k
    cases b with
    | redis => simp [owner]
    | database =>
      have hnot : (if ttl < 0 then none else some i) = if 0 ≤ ttl then some i else none := by
        split_ifs
        · omega
        · rfl
        · rfl
        · omega
      simpa [owner, lasts, hnot] using howner k

/-- A lock is granted where its name is free in its store. -/
theorem grant_isSome (hfree : st.owner x.backend x.key = none)
    (hlasts : lasts x.backend x.ttlSeconds) : (st.grant i x).isSome := by
  obtain ⟨name, ttl, backend, owned⟩ := x
  cases backend with
  | redis =>
    have hset : st.redis.setNx st.now name i ttl =
        some (Function.update st.redis name (some (i, st.now + ttl))) :=
      if_pos ⟨by simpa [lasts] using hlasts, hfree⟩
    simp [grant, hset]
  | database =>
    have hnone : st.db.owner st.now name = none := hfree
    simp [grant, DbLocks.acquire_eq, hnone]

/-- What is held after `acquire` was held before, or is gained. -/
theorem holds_acquire {j : ℕ} (hx : st.locks[j]? = some x)
    (h : (st.acquire j x answer).Holds i key) :
    st.Holds i key ∨ st.gains (.acquire j answer) = some i := by
  unfold acquire at h
  split at h
  · exact .inl h
  · exact .inl h
  · rename_i st' hgrant
    obtain ⟨hlocks, -, hfree, howner⟩ := grant_spec hgrant
    obtain ⟨y, hy, rfl, howned, htoken⟩ := h
    change st'.owner y.backend y.key = some i at htoken
    rw [howner] at htoken
    by_cases hij : i = j
    · subst hij
      obtain rfl : { x with owned := true } = y := by
        rw [hlocks] at hy
        simpa [(List.getElem?_eq_some_iff.mp hx).1] using hy
      simp only [and_self, if_true] at htoken
      split_ifs at htoken with hlasts
      right
      simp [gains, hx, hfree, hlasts]
    · have hy' : st.locks[i]? = some y := by
        rw [hlocks] at hy
        rw [← hy]
        exact (List.getElem?_set_ne (Ne.symm hij)).symm
      split_ifs at htoken with hname hlasts
      · exact absurd (Option.some.inj htoken).symm hij
      · exact .inl ⟨y, hy', rfl, howned, htoken⟩
  · rename_i st' hgrant
    obtain ⟨hlocks, -, hfree, howner⟩ := grant_spec hgrant
    obtain ⟨y, hy, rfl, howned, htoken⟩ := h
    rw [hlocks] at hy
    rw [howner] at htoken
    split_ifs at htoken with hname hlasts
    · obtain rfl := Option.some.inj htoken
      obtain rfl : x = y := Option.some.inj (hx.symm.trans hy)
      right
      simp [gains, hx, hfree, hlasts, howned]
    · exact .inl ⟨y, hy, rfl, howned, htoken⟩

/-- A release frees locks, and grants none. -/
theorem owner_of_unset {backend : LockBackend} {t : ℕ}
    (h : (st.unset i x answer).owner backend key = some t) : st.owner backend key = some t := by
  revert h
  unfold unset
  split
  · exact id
  · cases backend with
    | redis => exact RedisLocks.owner_of_release
    | database => exact id
  · cases backend with
    | redis => exact id
    | database => exact DbLocks.owner_of_release

/-- What is held after `release` was held before. -/
theorem holds_release {j : ℕ} (hx : st.locks[j]? = some x)
    (h : (st.release j x answer).Holds i key) : st.Holds i key := by
  by_cases howned : x.owned
  · rw [release, if_pos howned] at h
    obtain ⟨y, hy, rfl, hyowned, htoken⟩ := h
    have hset : (st.locks.set j { x with owned := false })[i]? = some y := hy
    have hij : i ≠ j := by
      rintro rfl
      rw [List.getElem?_set_self (List.getElem?_eq_some_iff.mp hx).1] at hset
      obtain rfl := Option.some.inj hset
      cases hyowned
    rw [List.getElem?_set_ne (Ne.symm hij)] at hset
    exact ⟨y, hset, rfl, hyowned, owner_of_unset htoken⟩
  · rw [release, if_neg howned] at h
    exact h

/-- What is held after `extend` was held before, or is gained. -/
theorem holds_extend {j : ℕ} {seconds : ℤ} (hx : st.locks[j]? = some x)
    (h : (st.extend j x seconds answer).Holds i key) :
    st.Holds i key ∨ st.gains (.extend j seconds answer) = some i := by
  unfold extend at h
  split_ifs at h with howned
  · cases hbackend : x.backend with
    | redis =>
      rw [hbackend] at h
      obtain ⟨y, hy, rfl, hyowned, htoken⟩ := h
      refine .inl ⟨y, hy, rfl, hyowned, ?_⟩
      revert htoken
      cases y.backend with
      | redis => exact RedisLocks.owner_of_extend
      | database => exact id
    | database =>
      rw [hbackend] at h
      obtain ⟨y, hy, rfl, hyowned, htoken⟩ := h
      cases hy' : y.backend with
      | redis =>
        rw [hy'] at htoken
        refine .inl ⟨y, hy, rfl, hyowned, ?_⟩
        rw [hy']
        exact htoken
      | database =>
        rw [hy'] at htoken
        rcases DbLocks.owner_of_extend htoken with hbefore | ⟨hkey, rfl, hpos, hrow, hfree⟩
        · refine .inl ⟨y, hy, rfl, hyowned, ?_⟩
          rw [hy']
          exact hbefore
        · right
          simp [gains, hx, howned.1, howned.2, hbackend, hfree, hrow, hpos]
  · exact .inl h

/-- **One move**: what is held after it was held before, or is gained. -/
theorem holds_step {move : LockMove} (h : (st.step move).Holds i key) :
    st.Holds i key ∨ st.gains move = some i := by
  cases move with
  | create name ttl ping =>
    obtain ⟨y, hy, rfl, howned, htoken⟩ := h
    refine .inl ⟨y, ?_, rfl, howned, htoken⟩
    have happend : (st.locks ++ [LockObject.mk name ttl (if ping then .redis else .database)
        false])[i]? = some y := hy
    by_cases hlt : i < st.locks.length
    · rw [List.getElem?_append_left hlt] at happend
      exact happend
    · rw [List.getElem?_append_right (by omega)] at happend
      obtain rfl := List.mem_singleton.mp (List.mem_of_getElem? happend)
      cases howned
  | tick now =>
    obtain ⟨y, hy, rfl, howned, htoken⟩ := h
    refine .inl ⟨y, hy, rfl, howned, ?_⟩
    revert htoken
    cases y.backend with
    | redis => exact RedisLocks.owner_of_le (le_max_left _ _)
    | database => exact DbLocks.owner_of_le (le_max_left _ _)
  | acquire j answer =>
    cases hx : st.locks[j]? with
    | none =>
      simp only [step, hx] at h
      exact .inl h
    | some x =>
      simp only [step, hx] at h
      exact holds_acquire hx h
  | release j answer =>
    cases hx : st.locks[j]? with
    | none =>
      simp only [step, hx] at h
      exact .inl h
    | some x =>
      simp only [step, hx] at h
      exact .inl (holds_release hx h)
  | extend j seconds answer =>
    cases hx : st.locks[j]? with
    | none =>
      simp only [step, hx] at h
      exact .inl h
    | some x =>
      simp only [step, hx] at h
      exact holds_extend hx h

/-! ## Lock objects keep their name and store -/

/-- A lock object in place of itself keeps name and store of every object. -/
theorem object_set {locks : List LockObject} {j k : ℕ} {z : LockObject} (owned : Bool)
    (hx : locks[j]? = some x) (hz : locks[k]? = some z) :
    ∃ y, (locks.set j { x with owned })[k]? = some y ∧ y.backend = z.backend ∧ y.key = z.key := by
  by_cases hjk : j = k
  · subst hjk
    obtain rfl : x = z := Option.some.inj (hx.symm.trans hz)
    refine ⟨{ x with owned }, ?_, rfl, rfl⟩
    exact List.getElem?_set_self (List.getElem?_eq_some_iff.mp hx).1
  · refine ⟨z, ?_, rfl, rfl⟩
    rw [List.getElem?_set_ne hjk]
    exact hz

theorem object_step {move : LockMove} {k : ℕ} {z : LockObject} (hz : st.locks[k]? = some z) :
    ∃ y, (st.step move).locks[k]? = some y ∧ y.backend = z.backend ∧ y.key = z.key := by
  cases move with
  | create name ttl ping =>
    refine ⟨z, ?_, rfl, rfl⟩
    change (st.locks ++ _)[k]? = some z
    rw [List.getElem?_append_left (List.getElem?_eq_some_iff.mp hz).1]
    exact hz
  | tick now => exact ⟨z, hz, rfl, rfl⟩
  | acquire j answer =>
    cases hx : st.locks[j]? with
    | none => exact ⟨z, by simpa [step, hx] using hz, rfl, rfl⟩
    | some x =>
      simp only [step, hx, Option.elim_some, acquire]
      split
      · exact ⟨z, hz, rfl, rfl⟩
      · exact ⟨z, hz, rfl, rfl⟩
      · rename_i st' hgrant
        have hlocks := (grant_spec hgrant).1
        change ∃ y, (st'.locks.set j _)[k]? = some y ∧ _
        rw [hlocks]
        exact object_set true hx hz
      · rename_i st' hgrant
        rw [(grant_spec hgrant).1]
        exact ⟨z, hz, rfl, rfl⟩
  | release j answer =>
    cases hx : st.locks[j]? with
    | none => exact ⟨z, by simpa [step, hx] using hz, rfl, rfl⟩
    | some x =>
      simp only [step, hx, Option.elim_some, release]
      split_ifs
      · exact object_set false hx hz
      · exact ⟨z, hz, rfl, rfl⟩
  | extend j seconds answer =>
    refine ⟨z, ?_, rfl, rfl⟩
    cases hx : st.locks[j]? with
    | none => simpa [step, hx] using hz
    | some x =>
      simp only [step, hx, Option.elim_some, extend]
      split_ifs
      · cases x.backend with
        | redis => exact hz
        | database => exact hz
      · exact hz

/-! ## What a move does to the stores -/

/-- A lock that has not expired after a move had not before, or is that of the lock object that
made the move. -/
theorem owner_step {move : LockMove} {backend : LockBackend} {t : ℕ}
    (h : (st.step move).owner backend key = some t) :
    st.owner backend key = some t ∨
      ∃ y, st.locks[t]? = some y ∧ y.backend = backend ∧ y.key = key := by
  cases move with
  | create name ttl ping => exact .inl h
  | tick now =>
    left
    revert h
    cases backend with
    | redis => exact RedisLocks.owner_of_le (le_max_left _ _)
    | database => exact DbLocks.owner_of_le (le_max_left _ _)
  | acquire j answer =>
    cases hx : st.locks[j]? with
    | none =>
      simp only [step, hx] at h
      exact .inl h
    | some x =>
      simp only [step, hx, Option.elim_some, acquire] at h
      have hgranted : ∀ st', st.grant j x = some st' → st'.owner backend key = some t →
          st.owner backend key = some t ∨
            ∃ y, st.locks[t]? = some y ∧ y.backend = backend ∧ y.key = key := by
        intro st' hgrant ht
        rw [(grant_spec hgrant).2.2.2] at ht
        split_ifs at ht with hname hlasts
        · obtain rfl := Option.some.inj ht
          exact .inr ⟨x, hx, hname.1.symm, hname.2.symm⟩
        · exact .inl ht
      split at h
      · exact .inl h
      · exact .inl h
      · rename_i st' hgrant
        exact hgranted st' hgrant h
      · rename_i st' hgrant
        exact hgranted st' hgrant h
  | release j answer =>
    cases hx : st.locks[j]? with
    | none =>
      simp only [step, hx] at h
      exact .inl h
    | some x =>
      simp only [step, hx, Option.elim_some, release] at h
      split_ifs at h
      · exact .inl (owner_of_unset h)
      · exact .inl h
  | extend j seconds answer =>
    cases hx : st.locks[j]? with
    | none =>
      simp only [step, hx] at h
      exact .inl h
    | some x =>
      simp only [step, hx, Option.elim_some, extend] at h
      split_ifs at h
      · cases hbackend : x.backend with
        | redis =>
          rw [hbackend] at h
          left
          revert h
          cases backend with
          | redis => exact RedisLocks.owner_of_extend
          | database => exact id
        | database =>
          rw [hbackend] at h
          cases backend with
          | redis => exact .inl h
          | database =>
            rcases DbLocks.owner_of_extend h with hbefore | ⟨hkey, rfl, -⟩
            · exact .inl hbefore
            · exact .inr ⟨x, hx, hbackend, hkey.symm⟩
      · exact .inl h

theorem tokened_step (move : LockMove) (h : st.Tokened) : (st.step move).Tokened := by
  intro backend key t ht
  have hobject : ∃ z, st.locks[t]? = some z ∧ z.backend = backend ∧ z.key = key := by
    rcases owner_step ht with hbefore | hnew
    · exact h backend key t hbefore
    · exact hnew
  obtain ⟨z, hz, rfl, rfl⟩ := hobject
  exact object_step hz

/-- A lock object that gains a lock holds it, and nothing changes in the other store or for other
lock objects. -/
theorem gains_spec {move : LockMove} (h : st.gains move = some i) :
    ∃ x, st.locks[i]? = some x ∧ (st.step move).Holds i x.key ∧
      (∀ key, (st.step move).owner (other x.backend) key = st.owner (other x.backend) key) ∧
      ∀ k ≠ i, (st.step move).locks[k]? = st.locks[k]? := by
  cases move with
  | create name ttl ping => cases h
  | release j answer => cases h
  | tick now => cases h
  | acquire j answer =>
    obtain ⟨x, hx, hgain⟩ := Option.bind_eq_some_iff.mp h
    split_ifs at hgain with hcond
    obtain rfl := Option.some.inj hgain
    obtain ⟨hreached, howned, hfree, hlasts⟩ := hcond
    obtain ⟨st', hgrant⟩ := Option.isSome_iff_exists.mp (grant_isSome (i := j) hfree hlasts)
    obtain ⟨hlocks, -, -, howner⟩ := grant_spec hgrant
    have hself : st'.owner x.backend x.key = some j := by simp [howner, hlasts]
    have hother : ∀ key, st'.owner (other x.backend) key = st.owner (other x.backend) key := by
      intro key
      have hne : other x.backend ≠ x.backend := by cases x.backend <;> simp [other]
      simp [howner, hne]
    refine ⟨x, hx, ?_⟩
    have hlt : j < st.locks.length := (List.getElem?_eq_some_iff.mp hx).1
    simp only [step, hx, Option.elim_some, acquire, hgrant]
    cases answer with
    | lost => exact absurd rfl hreached
    | answered =>
      refine ⟨⟨{ x with owned := true }, ?_, rfl, rfl, hself⟩, hother, ?_⟩
      · change (st'.locks.set j _)[j]? = _
        rw [hlocks, List.getElem?_set_self hlt]
      · intro k hk
        change (st'.locks.set j _)[k]? = _
        rw [hlocks, List.getElem?_set_ne (Ne.symm hk)]
    | unanswered =>
      have hxowned : x.owned := by simpa using howned
      refine ⟨⟨x, ?_, rfl, hxowned, hself⟩, hother, ?_⟩
      · rw [hlocks]
        exact hx
      · intro k hk
        rw [hlocks]
  | extend j seconds answer =>
    obtain ⟨x, hx, hgain⟩ := Option.bind_eq_some_iff.mp h
    split_ifs at hgain with hcond
    obtain rfl := Option.some.inj hgain
    obtain ⟨hreached, howned, hbackend, -, hrow, hpos⟩ := hcond
    refine ⟨x, hx, ?_⟩
    have hcall : x.owned ∧ answer ≠ .lost := ⟨howned, hreached⟩
    simp only [step, hx, Option.elim_some, extend, if_pos hcall, hbackend]
    refine ⟨⟨x, hx, rfl, howned, ?_⟩, fun key => rfl, fun k hk => trivial⟩
    rw [hbackend]
    change (st.db.extend st.now x.key j seconds).owner st.now x.key = some j
    rw [DbLocks.extend, if_pos hrow, DbLocks.owner_update, if_pos rfl, if_neg (by simpa using hpos)]

/-! ## A name is held once -/

/-- Two lock objects of one store do not hold one name. -/
theorem backend_ne_of_holds {j : ℕ} {x y : LockObject} (hx : st.locks[i]? = some x)
    (hy : st.locks[j]? = some y) (hi : st.Holds i key) (hj : st.Holds j key) (hij : i ≠ j) :
    y.backend = other x.backend := by
  obtain ⟨x', hx', -, -, hxowner⟩ := hi
  obtain ⟨y', hy', -, -, hyowner⟩ := hj
  obtain rfl : x = x' := Option.some.inj (hx.symm.trans hx')
  obtain rfl : y = y' := Option.some.inj (hy.symm.trans hy')
  have hne : x.backend ≠ y.backend := by
    intro heq
    rw [heq] at hxowner
    exact hij (Option.some.inj (hxowner.symm.trans hyowner))
  revert hne
  cases x.backend <;> cases y.backend <;> simp [other]

/-- **One move**: a name is still held once exactly where the move keeps the stores apart. -/
theorem exclusive_step {move : LockMove} (htokened : st.Tokened) (h : st.Exclusive) :
    (st.step move).Exclusive ↔ st.Apart move := by
  constructor
  · intro hafter i hgain x hx hheld
    obtain ⟨x', hx', hholds, hother, hlocks⟩ := gains_spec hgain
    obtain rfl : x = x' := Option.some.inj (Eq.trans (Eq.symm hx) hx')
    obtain ⟨j, hj, y, hy, howned⟩ := hheld
    obtain ⟨y', hy', hbackend, hkey⟩ := htokened _ _ _ hj
    obtain rfl : y = y' := Option.some.inj (Eq.trans (Eq.symm hy) hy')
    have hij : j ≠ i := by
      intro heq
      subst heq
      obtain rfl : x = y := Option.some.inj (hx'.symm.trans hy')
      revert hbackend
      cases x.backend <;> simp [other]
    refine hij (hafter j i x.key ⟨y, ?_, hkey, howned, ?_⟩ hholds)
    · rw [hlocks j hij]
      exact hy
    · rw [hbackend, hother]
      exact hj
  · intro hapart i j key hi hj
    by_contra hij
    -- a name that is gained stays free in the other store
    have hgained : ∀ i j, i ≠ j → (st.step move).Holds i key → (st.step move).Holds j key →
        st.gains move = some i → st.Holds j key → False := by
      intro i j hij hi hj hgain hbefore
      obtain ⟨x, hx, ⟨z, hz, hzkey, -⟩, -⟩ := gains_spec hgain
      obtain ⟨y, hy, hykey, howned, howner⟩ := hbefore
      have hobject : ∀ (k : ℕ) (z : LockObject), st.locks[k]? = some z →
          ∃ z' : LockObject, (st.step move).locks[k]? = some z' ∧
          z'.backend = z.backend ∧ z'.key = z.key := fun k z hz => object_step hz
      obtain ⟨x', hx', hxbackend, hxkey⟩ := hobject i x hx
      obtain ⟨y', hy', hybackend, -⟩ := hobject j y hy
      have hbackend := backend_ne_of_holds hx' hy' hi hj hij
      obtain ⟨w, hw, hwkey, -⟩ := hi
      obtain rfl : x' = w := Option.some.inj (hx'.symm.trans hw)
      refine hapart i hgain x hx ⟨j, ?_, y, hy, howned⟩
      rw [← hxbackend, ← hbackend, hybackend, ← hxkey, hwkey]
      exact howner
    rcases holds_step hi with hbefore | hgain
    · rcases holds_step hj with hbefore' | hgain'
      · exact hij (h i j key hbefore hbefore')
      · exact hgained j i (Ne.symm hij) hj hi hgain' hbefore
    · rcases holds_step hj with hbefore' | hgain'
      · exact hgained i j hij hi hj hgain hbefore'
      · exact hij (Option.some.inj (hgain.symm.trans hgain'))

/-- **Two stores**: a name is held once at any time exactly where no lock object comes to hold a
name while it is held in the other store. -/
theorem exclusive_iff (moves : List LockMove) :
    (∀ n, (Run.stateAt step {} moves n).Exclusive) ↔ Run.Along step Apart {} moves := by
  have hstart : Tokened {} ∧ Exclusive {} := by
    constructor
    · intro backend key t ht
      cases backend <;> cases ht
    · intro i j key hi
      obtain ⟨x, hx, -⟩ := hi
      cases hx
  refine Run.along_step_iff Exclusive |>.trans ?_
  rw [and_iff_right hstart.2]
  refine Run.along_congr_of_kept (fun st => Tokened st ∧ Exclusive st) ?_ ?_ hstart
  · intro st move h
    exact exclusive_step h.1 h.2
  · intro st move h hafter
    exact ⟨tokened_step move h.1, hafter⟩

/-- Redis is down when the second lock is made. -/
def outageMoves : List LockMove :=
  [.create (of "scan") 60 true, .acquire 0 .answered, .create (of "scan") 60 false,
    .acquire 1 .answered]

/-- Both lock objects hold the name. -/
theorem outage_holds_twice :
    ¬∀ moves, ∀ n, (Run.stateAt step {} moves n).Exclusive := by
  intro h
  have htwice : (Run.stateAt step {} outageMoves 4).Holds 0 (of "scan") ∧
      (Run.stateAt step {} outageMoves 4).Holds 1 (of "scan") := by decide +kernel
  exact absurd (h outageMoves 4 0 1 (of "scan") htwice.1 htwice.2) (by decide)

end LockWorld

end WolfNas
