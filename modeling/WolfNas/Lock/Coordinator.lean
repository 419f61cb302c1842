import WolfNas.Lock.Manager
import Mathlib.Data.List.Nodup

/-!
# The download coordinator

Strategies take a lock of the thing they are about to download, and give it back by its key.  The
coordinator of a process keeps one lock object for a key, the last that was acquired there.

## Main definitions

* `Holding` — a strategy that acquired a key and did not release it yet.
* `Coordinators`, `CoordinatorMove`, `Coordinators.step` — the coordinators of all processes.
* `Coordinators.Careful` — nobody releases an unexpired lock of someone else, and the two stores
  stay apart.

## Main results

* `LockWorld.lasting_foldl` — a lock lasts until its time, whatever others do.
* `Coordinators.alone_of_careful` — in runs of such moves no two strategies hold a key within its
  time to live, and no release takes a lock from someone else.
* `Coordinators.released_other` — a strategy that is late releases the lock of the next.
-/

namespace WolfNas

open Text

/-! ## Locks that last -/

namespace LockWorld

variable {st : LockWorld} {i l : ℕ} {x : LockObject} {answer : StoreAnswer} {key : Text}
  {backend : LockBackend} {deadline : ℚ}

/-- Who has a name in a store at a time. -/
def ownerAt (st : LockWorld) (t : ℚ) (backend : LockBackend) (key : Text) : Option ℕ :=
  match backend with
  | .redis => st.redis.owner t key
  | .database => st.db.owner t key

/-- The name is the token's in the store until the deadline. -/
def Keeps (st : LockWorld) (l : ℕ) (backend : LockBackend) (key : Text) (deadline : ℚ) : Prop :=
  ∀ t, st.now ≤ t → t < deadline → st.ownerAt t backend key = some l

/-- The lock object is in the store, owned. -/
def Owns (st : LockWorld) (l : ℕ) (backend : LockBackend) (key : Text) : Prop :=
  ∃ x, st.locks[l]? = some x ∧ x.backend = backend ∧ x.key = key ∧ x.owned = true

theorem holds_of_keeps (howns : st.Owns l backend key) (hkeeps : st.Keeps l backend key deadline)
    (hnow : st.now < deadline) : st.Holds l key := by
  obtain ⟨x, hx, rfl, rfl, howned⟩ := howns
  refine ⟨x, hx, rfl, howned, ?_⟩
  have howner := hkeeps st.now le_rfl hnow
  revert howner
  cases x.backend with
  | redis => exact id
  | database => exact id

/-- A lock that is granted under another name, or in the other store. -/
theorem ownerAt_grant {st' : LockWorld} (h : st.grant i x = some st') {t : ℚ}
    (howner : st.ownerAt st.now backend key = some l) :
    st'.ownerAt t backend key = st.ownerAt t backend key := by
  obtain ⟨name, ttl, b, owned⟩ := x
  cases b with
  | redis =>
    obtain ⟨redis, hset, rfl⟩ := Option.map_eq_some_iff.mp h
    cases backend with
    | redis => exact RedisLocks.owner_setNx_of_owner howner hset
    | database => rfl
  | database =>
    obtain ⟨db, hacquire, rfl⟩ := Option.map_eq_some_iff.mp h
    cases backend with
    | redis => rfl
    | database => exact DbLocks.owner_acquire_of_owner howner hacquire

/-- A lock of another token that is released. -/
theorem ownerAt_unset {t : ℚ} (hne : i ≠ l) (howner : st.ownerAt st.now backend key = some l) :
    (st.unset i x answer).ownerAt t backend key = st.ownerAt t backend key := by
  unfold unset
  split
  · rfl
  · cases backend with
    | redis => exact RedisLocks.owner_release_of_owner howner hne
    | database => rfl
  · cases backend with
    | redis => rfl
    | database => exact DbLocks.owner_release_of_owner howner hne

/-- A lock that is extended, of another token or far enough. -/
theorem ownerAt_extend {seconds : ℤ} {t : ℚ} (ht : i = l → t < st.now + seconds)
    (howner : st.ownerAt st.now backend key = some l) (hbefore : st.ownerAt t backend key = some l) :
    (st.extend i x seconds answer).ownerAt t backend key = some l := by
  unfold extend
  split_ifs
  · cases x.backend with
    | redis =>
      cases backend with
      | redis =>
        by_cases hi : i = l
        · subst hi
          exact RedisLocks.owner_extend_self (ht rfl) hbefore
        · exact (RedisLocks.owner_extend_of_owner howner hi).trans hbefore
      | database => exact hbefore
    | database =>
      cases backend with
      | redis => exact hbefore
      | database =>
        by_cases hi : i = l
        · subst hi
          exact DbLocks.owner_extend_self (ht rfl) hbefore
        · exact (DbLocks.owner_extend_of_owner howner hi).trans hbefore
  · exact hbefore

theorem now_le_step (move : LockMove) : st.now ≤ (st.step move).now := by
  cases move with
  | create name ttl ping => exact le_rfl
  | tick now => exact le_max_left _ _
  | acquire j answer =>
    cases hx : st.locks[j]? with
    | none => simp [step, hx]
    | some x =>
      simp only [step, hx, Option.elim_some, acquire]
      split
      · exact le_rfl
      · exact le_rfl
      · rename_i st' hgrant
        exact (grant_spec hgrant).2.1.ge
      · rename_i st' hgrant
        exact (grant_spec hgrant).2.1.ge
  | release j answer =>
    cases hx : st.locks[j]? with
    | none => simp [step, hx]
    | some x =>
      simp only [step, hx, Option.elim_some, release, unset]
      split_ifs
      · split
        · exact le_rfl
        · exact le_rfl
        · exact le_rfl
      · exact le_rfl
  | extend j seconds answer =>
    cases hx : st.locks[j]? with
    | none => simp [step, hx]
    | some x =>
      simp only [step, hx, Option.elim_some, extend]
      split_ifs
      · cases x.backend with
        | redis => exact le_rfl
        | database => exact le_rfl
      · exact le_rfl

/-- **A lock lasts** until its deadline, where it is not released and not extended to less. -/
theorem keeps_step {move : LockMove} (h : st.Keeps l backend key deadline)
    (hrelease : ∀ answer, move ≠ .release l answer)
    (hextend : ∀ seconds answer, move = .extend l seconds answer → deadline ≤ st.now + seconds) :
    (st.step move).Keeps l backend key deadline := by
  intro t hnow ht
  have hnow' : st.now ≤ t := (now_le_step move).trans hnow
  have hbefore := h t hnow' ht
  have howner := h st.now le_rfl (hnow'.trans_lt ht)
  cases move with
  | create name ttl ping => exact hbefore
  | tick now => exact hbefore
  | acquire j answer =>
    cases hx : st.locks[j]? with
    | none => simpa only [step, hx, Option.elim_none] using hbefore
    | some x =>
      simp only [step, hx, Option.elim_some, acquire]
      split
      · exact hbefore
      · exact hbefore
      · rename_i st' hgrant
        exact (ownerAt_grant hgrant howner).trans hbefore
      · rename_i st' hgrant
        exact (ownerAt_grant hgrant howner).trans hbefore
  | release j answer =>
    have hj : j ≠ l := by
      rintro rfl
      exact hrelease answer rfl
    cases hx : st.locks[j]? with
    | none => simpa only [step, hx, Option.elim_none] using hbefore
    | some x =>
      simp only [step, hx, Option.elim_some, release]
      split_ifs
      · exact (ownerAt_unset hj howner).trans hbefore
      · exact hbefore
  | extend j seconds answer =>
    cases hx : st.locks[j]? with
    | none => simpa only [step, hx, Option.elim_none] using hbefore
    | some x =>
      simp only [step, hx, Option.elim_some]
      refine ownerAt_extend ?_ howner hbefore
      rintro rfl
      exact ht.trans_le (hextend seconds answer rfl)

/-- A lock object stays owned where it is not released. -/
theorem owns_step {move : LockMove} (h : st.Owns l backend key)
    (hrelease : ∀ answer, move ≠ .release l answer) : (st.step move).Owns l backend key := by
  obtain ⟨x, hx, rfl, rfl, howned⟩ := h
  cases move with
  | create name ttl ping =>
    refine ⟨x, ?_, rfl, rfl, howned⟩
    change (st.locks ++ _)[l]? = some x
    rw [List.getElem?_append_left (List.getElem?_eq_some_iff.mp hx).1]
    exact hx
  | tick now => exact ⟨x, hx, rfl, rfl, howned⟩
  | acquire j answer =>
    cases hy : st.locks[j]? with
    | none => exact ⟨x, by simpa [step, hy] using hx, rfl, rfl, howned⟩
    | some y =>
      simp only [step, hy, Option.elim_some, acquire]
      split
      · exact ⟨x, hx, rfl, rfl, howned⟩
      · exact ⟨x, hx, rfl, rfl, howned⟩
      · rename_i st' hgrant
        by_cases hj : j = l
        · subst hj
          obtain rfl : y = x := Option.some.inj (hy.symm.trans hx)
          refine ⟨{ y with owned := true }, ?_, rfl, rfl, rfl⟩
          change (st'.locks.set j _)[j]? = _
          rw [(grant_spec hgrant).1]
          exact List.getElem?_set_self (List.getElem?_eq_some_iff.mp hx).1
        · refine ⟨x, ?_, rfl, rfl, howned⟩
          change (st'.locks.set j _)[l]? = _
          rw [(grant_spec hgrant).1, List.getElem?_set_ne hj]
          exact hx
      · rename_i st' hgrant
        rw [Owns, (grant_spec hgrant).1]
        exact ⟨x, hx, rfl, rfl, howned⟩
  | release j answer =>
    have hj : j ≠ l := by
      rintro rfl
      exact hrelease answer rfl
    cases hy : st.locks[j]? with
    | none => exact ⟨x, by simpa [step, hy] using hx, rfl, rfl, howned⟩
    | some y =>
      simp only [step, hy, Option.elim_some, release]
      split_ifs
      · refine ⟨x, ?_, rfl, rfl, howned⟩
        change (st.locks.set j _)[l]? = _
        rw [List.getElem?_set_ne hj]
        exact hx
      · exact ⟨x, hx, rfl, rfl, howned⟩
  | extend j seconds answer =>
    refine ⟨x, ?_, rfl, rfl, howned⟩
    cases hy : st.locks[j]? with
    | none => simpa [step, hy] using hx
    | some y =>
      simp only [step, hy, Option.elim_some, extend]
      split_ifs
      · cases y.backend with
        | redis => exact hx
        | database => exact hx
      · exact hx

/-- A lock that is granted lasts for its time to live. -/
theorem keeps_grant {st' : LockWorld} (h : st.grant i x = some st') :
    st'.Keeps i x.backend x.key (st.now + x.ttlSeconds) := by
  obtain ⟨name, ttl, b, owned⟩ := x
  intro t _ ht
  cases b with
  | redis =>
    obtain ⟨redis, hset, rfl⟩ := Option.map_eq_some_iff.mp h
    unfold RedisLocks.setNx at hset
    split_ifs at hset
    obtain rfl := Option.some.inj hset
    change RedisLocks.owner (Function.update st.redis name (some (i, st.now + ttl))) t name = some i
    rw [RedisLocks.owner_update, if_pos rfl, if_pos ht]
  | database =>
    obtain ⟨db, hacquire, rfl⟩ := Option.map_eq_some_iff.mp h
    rw [DbLocks.acquire_eq] at hacquire
    split_ifs at hacquire
    obtain rfl := Option.some.inj hacquire
    change DbLocks.owner (Function.update st.db name (some (i, ⌊st.now⌋ + ttl))) t name = some i
    have hfloor : ⌊t⌋ ≤ ⌊st.now + (ttl : ℚ)⌋ := Int.floor_le_floor ht.le
    rw [Int.floor_add_intCast] at hfloor
    rw [DbLocks.owner_update, if_pos rfl, if_neg (by dsimp only; omega)]

/-- A lock object that was not owned is owned after it acquired, and its lock lasts. -/
theorem acquire_spec (hx : st.locks[i]? = some x) (howned : x.owned = false)
    (h : ∃ y, (st.step (.acquire i answer)).locks[i]? = some y ∧ y.owned = true) :
    (st.step (.acquire i answer)).Owns i x.backend x.key ∧
      (st.step (.acquire i answer)).Keeps i x.backend x.key (st.now + x.ttlSeconds) := by
  obtain ⟨y, hy, hyowned⟩ := h
  simp only [step, hx, Option.elim_some, acquire] at hy ⊢
  have hnot : st.locks[i]? = some y → False := by
    intro hy
    obtain rfl : x = y := Option.some.inj (hx.symm.trans hy)
    rw [howned] at hyowned
    cases hyowned
  split at hy
  · exact (hnot hy).elim
  · exact (hnot hy).elim
  · rename_i st' hgrant
    refine ⟨⟨{ x with owned := true }, ?_, rfl, rfl, rfl⟩, fun t h₁ h₂ => keeps_grant hgrant t h₁ h₂⟩
    change (st'.locks.set i _)[i]? = _
    rw [(grant_spec hgrant).1]
    exact List.getElem?_set_self (List.getElem?_eq_some_iff.mp hx).1
  · rename_i st' hgrant
    rw [(grant_spec hgrant).1] at hy
    exact (hnot hy).elim

/-- The lock object is owned, and its lock lasts until the deadline. -/
def Lasting (st : LockWorld) (l : ℕ) (key : Text) (deadline : ℚ) : Prop :=
  ∃ backend, st.Owns l backend key ∧ st.Keeps l backend key deadline

/-- **A lock lasts** while it is not released and not extended to less. -/
theorem lasting_foldl {moves : List LockMove} (h : st.Lasting l key deadline)
    (hrelease : ∀ move ∈ moves, ∀ answer, move ≠ .release l answer)
    (hextend : ∀ move ∈ moves, ∀ seconds answer, move = .extend l seconds answer →
      deadline ≤ st.now + seconds) : (moves.foldl step st).Lasting l key deadline := by
  have hall : st.now ≤ (moves.foldl step st).now ∧
      (moves.foldl step st).Lasting l key deadline := by
    refine Run.invariant (fun t : LockWorld => st.now ≤ t.now ∧ t.Lasting l key deadline) ⟨le_rfl, h⟩ ?_
    intro t ht move hmove
    obtain ⟨hnow, backend, howns, hkeeps⟩ := ht
    refine ⟨hnow.trans (now_le_step move), backend, owns_step howns (hrelease move hmove),
      keeps_step hkeeps (hrelease move hmove) ?_⟩
    intro seconds answer heq
    have hfar := hextend move hmove seconds answer heq
    linarith
  exact hall.2

/-- Time does not go back. -/
theorem now_le_foldl (moves : List LockMove) : st.now ≤ (moves.foldl step st).now := by
  refine Run.invariant (fun t : LockWorld => st.now ≤ t.now) le_rfl ?_
  intro t ht move _
  exact ht.trans (now_le_step move)

/-- Every lock object keeps its name. -/
theorem object_foldl {z : LockObject} (moves : List LockMove) (hz : st.locks[l]? = some z) :
    ∃ y, (moves.foldl step st).locks[l]? = some y ∧ y.key = z.key := by
  refine Run.invariant (fun t : LockWorld => ∃ y, t.locks[l]? = some y ∧ y.key = z.key) ⟨z, hz, rfl⟩ ?_
  intro t ht move _
  obtain ⟨y, hy, hkey⟩ := ht
  have hstep : ∃ y', (t.step move).locks[l]? = some y' ∧ _ := object_step hy
  obtain ⟨y', hy', -, hkey'⟩ := hstep
  exact ⟨y', hy', hkey'.trans hkey⟩

/-- A lock that is held is still held after another one was released. -/
theorem holds_release_of_ne {j : ℕ} (h : st.Holds l key) (hne : j ≠ l) :
    (st.step (.release j answer)).Holds l key := by
  obtain ⟨x, hx, rfl, howned, howner⟩ := h
  cases hy : st.locks[j]? with
  | none =>
    simp only [step, hy, Option.elim_none]
    exact ⟨x, hx, rfl, howned, howner⟩
  | some y =>
    simp only [step, hy, Option.elim_some, release]
    split_ifs
    · refine ⟨x, ?_, rfl, howned, ?_⟩
      · change (st.locks.set j _)[l]? = some x
        rw [List.getElem?_set_ne hne]
        exact hx
      · have howner' : st.ownerAt st.now x.backend x.key = some l := by
          revert howner
          cases x.backend with
          | redis => exact id
          | database => exact id
        have hafter := (@ownerAt_unset st j l y answer x.key x.backend st.now hne howner').trans
          howner'
        have hnow : (st.unset j y answer).now = st.now := by
          unfold unset
          split <;> rfl
        change (st.unset j y answer).owner x.backend x.key = some l
        revert hafter
        cases x.backend with
        | redis =>
          intro hafter
          change (st.unset j y answer).redis.owner (st.unset j y answer).now x.key = some l
          rw [hnow]
          exact hafter
        | database =>
          intro hafter
          change (st.unset j y answer).db.owner (st.unset j y answer).now x.key = some l
          rw [hnow]
          exact hafter
    · exact ⟨x, hx, rfl, howned, howner⟩

end LockWorld

/-! ## Coordinators -/

/-- A strategy of a process that acquired a key and did not release it yet. -/
structure Holding where
  process : ℕ
  key : Text
  lock : ℕ
  since : ℚ
  deriving DecidableEq

/-- The lock objects and stores, the coordinators' `_locks`, and who holds. -/
structure Coordinators where
  world : LockWorld := {}
  locks : ℕ → Text → Option ℕ := fun _ _ => none
  holdings : List Holding := []

/-- A call of a coordinator, or time.  A strategy releases the key that it acquired with a lock
object; `stray` is a release by one that holds nothing. -/
inductive CoordinatorMove
  | tryAcquire (process : ℕ) (key : Text) (ping : Bool) (answer : StoreAnswer)
  | release (lock : ℕ) (answer : StoreAnswer)
  | stray (process : ℕ) (key : Text) (answer : StoreAnswer)
  | extend (process : ℕ) (key : Text) (answer : StoreAnswer)
  | isLocked (process : ℕ) (key : Text) (ping : Bool) (answer answer' : StoreAnswer)
  | tick (now : ℚ)

namespace Coordinators

/-- `DEFAULT_LOCK_TTL`. -/
def defaultLockTtl : ℤ := 300

/-- What follows of a call at the locks. -/
def after (w : Coordinators) (moves : List LockMove) : Coordinators :=
  { w with world := moves.foldl LockWorld.step w.world }

/-- The coordinator of a process keeps a lock object for a key, or none. -/
def keep (w : Coordinators) (process : ℕ) (key : Text) (lock : Option ℕ) : Coordinators :=
  { w with locks := Function.update w.locks process (Function.update (w.locks process) key lock) }

/-- The holding with a lock object. -/
def holding (w : Coordinators) (lock : ℕ) : Option Holding := w.holdings.find? fun h => h.lock = lock

/-- What a call does at the locks. -/
def lockMoves (w : Coordinators) : CoordinatorMove → List LockMove
  | .tryAcquire _ key ping answer =>
    [.create key defaultLockTtl ping, .acquire w.world.locks.length answer]
  | .release lock answer => match w.holding lock with
    | some h => (w.locks h.process h.key).elim [] fun j => [.release j answer]
    | none => []
  | .stray process key answer => (w.locks process key).elim [] fun j => [.release j answer]
  | .extend process key answer =>
    (w.locks process key).elim [] fun j => [.extend j defaultLockTtl answer]
  | .isLocked process key ping answer answer' =>
    if (w.locks process key).isSome then []
    else [.create key 1 ping, .acquire w.world.locks.length answer,
      .release w.world.locks.length answer']
  | .tick now => [.tick now]

/-- `try_acquire`: the new lock object is kept where it acquired. -/
def tryAcquire (w : Coordinators) (process : ℕ) (key : Text) (w' : Coordinators) : Coordinators :=
  let lock := w.world.locks.length
  if ((w'.world.locks[lock]?).map LockObject.owned) = some true then
    { w'.keep process key (some lock) with
      holdings := ⟨process, key, lock, w.world.now⟩ :: w.holdings }
  else w'

/-- One move: `release` pops the lock object of its key. -/
def step (w : Coordinators) (move : CoordinatorMove) : Coordinators :=
  let w' := w.after (w.lockMoves move)
  match move with
  | .tryAcquire process key _ _ => w.tryAcquire process key w'
  | .release lock _ => match w.holding lock with
    | some h => { w'.keep h.process h.key none with
        holdings := w.holdings.filter fun h => h.lock ≠ lock }
    | none => w'
  | .stray process key _ => w'.keep process key none
  | .extend _ _ _ | .isLocked _ _ _ _ _ | .tick _ => w'

/-- Nobody releases a lock of someone else that has not expired, and what is done at the locks
keeps the stores apart. -/
def Careful (w : Coordinators) (move : CoordinatorMove) : Prop :=
  Run.Along LockWorld.step LockWorld.Apart w.world (w.lockMoves move) ∧
    match move with
    | .release lock _ => ∀ h ∈ w.holding lock, ∀ j ∈ w.locks h.process h.key,
        j ≠ lock → ¬w.world.Holds j h.key
    | .stray process key _ => ∀ j ∈ w.locks process key, ¬w.world.Holds j key
    | _ => True

instance (w : Coordinators) (move : CoordinatorMove) : Decidable (w.Careful move) := by
  unfold Careful
  cases move <;> dsimp only <;> infer_instance

/-- No two strategies hold a key within its time to live. -/
def Alone (w : Coordinators) : Prop :=
  ∀ h ∈ w.holdings, ∀ h' ∈ w.holdings, h.key = h'.key → w.world.now < h.since + defaultLockTtl →
    w.world.now < h'.since + defaultLockTtl → h = h'

/-- What others hold before a release they hold after it. -/
def Spares (w : Coordinators) (move : CoordinatorMove) : Prop :=
  ∀ h ∈ w.holdings, w.world.Holds h.lock h.key → match move with
    | .release lock _ => h.lock ≠ lock → (w.step move).world.Holds h.lock h.key
    | .stray _ _ _ => (w.step move).world.Holds h.lock h.key
    | _ => True

/-! ## What the coordinators keep -/

variable {w : Coordinators} {move : CoordinatorMove}

theorem step_world : (w.step move).world = (w.lockMoves move).foldl LockWorld.step w.world := by
  cases move with
  | tryAcquire process key ping answer =>
    simp only [step, tryAcquire]
    split_ifs <;> rfl
  | release lock answer =>
    simp only [step]
    split <;> rfl
  | stray process key answer => rfl
  | extend process key answer => rfl
  | isLocked process key ping answer answer' => rfl
  | tick now => rfl

/-- Names are held once; the coordinators keep lock objects of their keys; who holds within the
time to live has a lock that lasts. -/
structure Good (w : Coordinators) : Prop where
  tokened : w.world.Tokened
  exclusive : w.world.Exclusive
  keyed : ∀ process key, ∀ j ∈ w.locks process key, ∃ x, w.world.locks[j]? = some x ∧ x.key = key
  made : ∀ h ∈ w.holdings, h.lock < w.world.locks.length ∧ h.since ≤ w.world.now
  distinct : (w.holdings.map Holding.lock).Nodup
  lasting : ∀ h ∈ w.holdings, w.world.now < h.since + defaultLockTtl →
    w.world.Lasting h.lock h.key (h.since + defaultLockTtl)

theorem alone_of_good (hgood : w.Good) : w.Alone := by
  intro h hh h' hh' hkey hnow hnow'
  have hholds : ∀ h ∈ w.holdings, w.world.now < h.since + defaultLockTtl →
      w.world.Holds h.lock h.key := by
    intro h hh hnow
    obtain ⟨backend, howns, hkeeps⟩ := hgood.lasting h hh hnow
    exact LockWorld.holds_of_keeps howns hkeeps hnow
  have hlock := hgood.exclusive h.lock h'.lock h.key (hholds h hh hnow)
    (hkey ▸ hholds h' hh' hnow')
  exact List.inj_on_of_nodup_map hgood.distinct hh hh' hlock

/-- Calls at the locks that release none of the unexpired locks of those who still hold. -/
theorem good_after {moves : List LockMove} {holdings : List Holding} (hgood : w.Good)
    (hapart : Run.Along LockWorld.step LockWorld.Apart w.world moves)
    (hsub : holdings.Sublist w.holdings)
    (hrelease : ∀ h ∈ holdings, w.world.now < h.since + defaultLockTtl →
      ∀ move ∈ moves, ∀ answer, move ≠ .release h.lock answer)
    (hextend : ∀ move ∈ moves, ∀ l seconds answer, move = .extend l seconds answer →
      seconds = defaultLockTtl) : Good { w.after moves with holdings := holdings } := by
  have hkept : (w.after moves).world.Tokened ∧ (w.after moves).world.Exclusive := by
    refine Run.invariant_along (fun st : LockWorld => st.Tokened ∧ st.Exclusive)
      ⟨hgood.tokened, hgood.exclusive⟩ hapart ?_
    intro st move h hstep
    exact ⟨LockWorld.tokened_step move h.1, (LockWorld.exclusive_step h.1 h.2).mpr hstep⟩
  have hnow : w.world.now ≤ (w.after moves).world.now := LockWorld.now_le_foldl moves
  refine ⟨hkept.1, hkept.2, ?_, ?_, hgood.distinct.sublist (hsub.map _), ?_⟩
  · intro process key j hj
    obtain ⟨x, hx, rfl⟩ := hgood.keyed process key j hj
    exact LockWorld.object_foldl moves hx
  · intro h hh
    obtain ⟨hlt, hsince⟩ := hgood.made h (hsub.subset hh)
    obtain ⟨y, hy, -⟩ := LockWorld.object_foldl moves (List.getElem?_eq_getElem hlt)
    exact ⟨(List.getElem?_eq_some_iff.mp hy).1, hsince.trans hnow⟩
  · intro h hh hlate
    have hbefore : w.world.now < h.since + defaultLockTtl := hnow.trans_lt hlate
    refine LockWorld.lasting_foldl (hgood.lasting h (hsub.subset hh) hbefore)
      (hrelease h hh hbefore) ?_
    intro move hmove seconds answer heq
    rw [hextend move hmove _ seconds answer heq]
    have hsince := (hgood.made h (hsub.subset hh)).2
    linarith

/-- A coordinator that drops its lock object of a key. -/
theorem good_keep_none (process : ℕ) (key : Text) (hgood : w.Good) :
    (w.keep process key none).Good := by
  refine ⟨hgood.tokened, hgood.exclusive, ?_, hgood.made, hgood.distinct, hgood.lasting⟩
  intro process' key' j hj
  refine hgood.keyed process' key' j ?_
  unfold keep at hj
  by_cases hprocess : process' = process
  · subst hprocess
    by_cases hkey : key' = key
    · subst hkey
      simp at hj
    · simpa [Function.update_of_ne hkey] using hj
  · simpa [Function.update_of_ne hprocess] using hj

/-- A release, of a holder or not, that spares the unexpired locks of those who still hold. -/
theorem good_release {process : ℕ} {key : Text} {answer : StoreAnswer} {holdings : List Holding}
    {moves : List LockMove} (hgood : w.Good)
    (hmoves : moves = (w.locks process key).elim [] fun j => [.release j answer])
    (hapart : Run.Along LockWorld.step LockWorld.Apart w.world moves)
    (hsub : holdings.Sublist w.holdings)
    (hspare : ∀ h ∈ holdings, w.locks process key = some h.lock → ¬w.world.Holds h.lock key) :
    Good { (w.after moves).keep process key none with holdings := holdings } := by
  refine good_keep_none process key (w := { w.after moves with holdings := holdings }) ?_
  refine good_after hgood hapart hsub ?_ ?_
  · intro h hh hnow move hmove answer' heq
    subst heq
    rw [hmoves] at hmove
    cases hj : w.locks process key with
    | none => simp [hj] at hmove
    | some j =>
      obtain ⟨rfl, -⟩ : h.lock = j ∧ answer' = answer := by simpa [hj] using hmove
      obtain ⟨backend, ⟨x, hx, hbackend, hkey, howned⟩, hkeeps⟩ :=
        hgood.lasting h (hsub.subset hh) hnow
      obtain ⟨x', hx', hkey'⟩ := hgood.keyed process key h.lock hj
      obtain rfl : x = x' := Option.some.inj (hx.symm.trans hx')
      have hkeyeq : h.key = key := hkey.symm.trans hkey'
      rw [hkeyeq] at hkeeps
      exact hspare h hh hj (LockWorld.holds_of_keeps ⟨x, hx, hbackend, hkey', howned⟩ hkeeps hnow)
  · intro move hmove l seconds answer' heq
    subst heq
    rw [hmoves] at hmove
    cases hj : w.locks process key with
    | none => simp [hj] at hmove
    | some j => simp [hj] at hmove

/-- `try_acquire` that succeeds adds one who holds a lock that lasts. -/
theorem good_tryAcquire {process : ℕ} {key : Text} {ping : Bool} {answer : StoreAnswer}
    (hgood : w.Good) (hafter : (w.after (w.lockMoves (.tryAcquire process key ping answer))).Good) :
    (w.step (.tryAcquire process key ping answer)).Good := by
  simp only [step, tryAcquire]
  split_ifs with hacquired
  · set w' := w.after (w.lockMoves (.tryAcquire process key ping answer)) with hw'
    have hnew : (w.world.createLock key defaultLockTtl ping).locks[w.world.locks.length]? =
        some ⟨key, defaultLockTtl, if ping then .redis else .database, false⟩ :=
      List.getElem?_concat_length
    obtain ⟨y, hy, hyowned⟩ := Option.map_eq_some_iff.mp hacquired
    have hspec := LockWorld.acquire_spec hnew rfl ⟨y, hy, hyowned⟩
    refine ⟨hafter.tokened, hafter.exclusive, ?_, ?_, ?_, ?_⟩
    · intro process' key' j hj
      by_cases hprocess : process' = process ∧ key' = key
      · obtain ⟨rfl, rfl⟩ := hprocess
        obtain rfl : w.world.locks.length = j := by simpa [keep] using hj
        obtain ⟨x, hx, -, hkey, -⟩ := hspec.1
        exact ⟨x, hx, hkey⟩
      · refine hafter.keyed process' key' j ?_
        revert hj
        simp only [keep, Function.update_apply]
        split_ifs <;> simp_all
    · intro h hh
      rcases List.mem_cons.mp hh with rfl | hh
      · exact ⟨(List.getElem?_eq_some_iff.mp hy).1, LockWorld.now_le_foldl _⟩
      · exact hafter.made h hh
    · refine List.nodup_cons.mpr ⟨?_, hgood.distinct⟩
      intro hmem
      obtain ⟨h, hh, hlock⟩ := List.mem_map.mp hmem
      exact (hgood.made h hh).1.ne hlock
    · intro h hh hnow
      rcases List.mem_cons.mp hh with rfl | hh
      · exact ⟨_, hspec.1, hspec.2⟩
      · exact hafter.lasting h hh hnow
  · exact hafter

theorem good_step (hgood : w.Good) (hcareful : w.Careful move) : (w.step move).Good := by
  obtain ⟨hapart, hspare⟩ := hcareful
  cases move with
  | tryAcquire process key ping answer =>
    refine good_tryAcquire hgood (good_after hgood hapart (List.Sublist.refl _) ?_ ?_)
    · intro h hh _ move hmove answer' heq
      subst heq
      simp [lockMoves] at hmove
    · intro move hmove l seconds answer' heq
      subst heq
      simp [lockMoves] at hmove
  | release lock answer =>
    cases hholding : w.holding lock with
    | none =>
      have hmoves : w.lockMoves (.release lock answer) = [] := by simp [lockMoves, hholding]
      simp only [step, hholding, hmoves]
      exact hgood
    | some h =>
      have hmoves : w.lockMoves (.release lock answer) =
          (w.locks h.process h.key).elim [] fun j => [.release j answer] := by
        simp [lockMoves, hholding]
      simp only [step, hholding]
      refine good_release hgood hmoves hapart List.filter_sublist ?_
      intro h' hh' hj
      have hne : h'.lock ≠ lock := by simpa using (List.mem_filter.mp hh').2
      exact hspare h hholding h'.lock hj hne
  | stray process key answer =>
    refine good_release hgood rfl hapart (List.Sublist.refl _) ?_
    intro h _ hj
    exact hspare h.lock hj
  | extend process key answer =>
    refine good_after hgood hapart (List.Sublist.refl _) ?_ ?_
    · intro h _ _ move hmove answer' heq
      subst heq
      cases hj : w.locks process key with
      | none => simp [lockMoves, hj] at hmove
      | some j => simp [lockMoves, hj] at hmove
    · intro move hmove l seconds answer' heq
      subst heq
      cases hj : w.locks process key with
      | none => simp [lockMoves, hj] at hmove
      | some j =>
        have hmove' : l = j ∧ seconds = defaultLockTtl ∧ answer' = answer := by
          simpa [lockMoves, hj] using hmove
        exact hmove'.2.1
  | isLocked process key ping answer answer' =>
    refine good_after hgood hapart (List.Sublist.refl _) ?_ ?_
    · intro h hh _ move hmove answer'' heq
      subst heq
      have hlt := (hgood.made h hh).1
      dsimp only [lockMoves] at hmove
      split_ifs at hmove
      · simp at hmove
      · obtain ⟨hlock, -⟩ : h.lock = w.world.locks.length ∧ answer'' = answer' := by
          simpa using hmove
        omega
    · intro move hmove l seconds answer'' heq
      subst heq
      dsimp only [lockMoves] at hmove
      split_ifs at hmove
      · simp at hmove
      · simp at hmove
  | tick now =>
    refine good_after hgood hapart (List.Sublist.refl _) ?_ ?_
    · intro h _ _ move hmove answer' heq
      subst heq
      simp [lockMoves] at hmove
    · intro move hmove l seconds answer' heq
      subst heq
      simp [lockMoves] at hmove

/-- A lock object that is not the coordinator's is still held after the coordinator's was
released. -/
theorem holds_foldl_release {process : ℕ} {key : Text} {answer : StoreAnswer} {h : Holding}
    (hgood : w.Good) (hholds : w.world.Holds h.lock h.key)
    (hspare : w.locks process key = some h.lock → ¬w.world.Holds h.lock key) :
    (((w.locks process key).elim [] fun j => [LockMove.release j answer]).foldl LockWorld.step
      w.world).Holds h.lock h.key := by
  cases hj : w.locks process key with
  | none => exact hholds
  | some j =>
    refine LockWorld.holds_release_of_ne hholds ?_
    rintro rfl
    -- the lock object has the key under which the coordinator keeps it
    obtain ⟨x, hx, hkey⟩ := hgood.keyed process key h.lock hj
    obtain ⟨x', hx', hkey', -⟩ := id hholds
    obtain rfl : x = x' := Option.some.inj (hx.symm.trans hx')
    exact hspare hj (hkey ▸ hkey' ▸ hholds)

theorem spares_of_good (hgood : w.Good) (hcareful : w.Careful move) : w.Spares move := by
  intro h hh hholds
  cases move with
  | release lock answer =>
    intro hne
    rw [step_world]
    cases hholding : w.holding lock with
    | none => simpa [lockMoves, hholding] using hholds
    | some h' =>
      simp only [lockMoves, hholding]
      refine holds_foldl_release hgood hholds ?_
      intro hj
      exact hcareful.2 h' hholding h.lock hj hne
  | stray process key answer =>
    rw [step_world]
    exact holds_foldl_release hgood hholds fun hj => hcareful.2 h.lock hj
  | tryAcquire process key ping answer => trivial
  | extend process key answer => trivial
  | isLocked process key ping answer answer' => trivial
  | tick now => trivial

theorem good_empty : Good {} where
  tokened := by
    intro backend key t ht
    cases backend with
    | redis => cases ht
    | database => cases ht
  exclusive := by
    rintro i j key ⟨x, hx, -⟩
    cases hx
  keyed := by
    intro process key j hj
    cases hj
  made := by
    intro h hh
    cases hh
  distinct := List.nodup_nil
  lasting := by
    intro h hh
    cases hh

/-- **Coordinators**: where nobody releases an unexpired lock of someone else and the stores stay
apart, no two strategies hold a key within its time to live at any time, and no release takes a
lock from someone else. -/
theorem alone_of_careful (moves : List CoordinatorMove) (h : Run.Along step Careful {} moves) :
    (∀ n, (Run.stateAt step {} moves n).Alone) ∧ Run.Along step Spares {} moves := by
  constructor
  · intro n
    refine alone_of_good (Run.invariant_along Good good_empty (h.take n) ?_)
    intro w move hgood hcareful
    exact good_step hgood hcareful
  · refine Run.Along.of_invariant Good good_empty h ?_ ?_
    · intro w move hgood hcareful
      exact good_step hgood hcareful
    · intro w move hgood hcareful
      exact spares_of_good hgood hcareful

/-- A strategy is late and the next one, of another process, has the lock when it releases. -/
def lateMoves : List CoordinatorMove :=
  [.tryAcquire 0 (of "key") true .answered, .tick 200, .extend 0 (of "key") .answered,
    .tryAcquire 1 (of "key") true .answered, .tick 501, .tryAcquire 1 (of "key") true .answered,
    .release 0 .answered, .tryAcquire 0 (of "key") true .answered]

/-- The lock of the other process is spared. -/
theorem alone_late :
    (∀ n, (Run.stateAt step {} lateMoves n).Alone) ∧ Run.Along step Spares {} lateMoves :=
  alone_of_careful lateMoves (by decide +kernel)

/-- The same with one coordinator. -/
def sharedMoves : List CoordinatorMove :=
  [.tryAcquire 0 (of "key") true .answered, .tick 301, .tryAcquire 0 (of "key") true .answered,
    .release 0 .answered, .tryAcquire 0 (of "key") true .answered]

/-- **A late release**: it takes the lock of the next strategy, and two hold the key. -/
theorem released_other :
    ¬∀ moves, (∀ n, (Run.stateAt step {} moves n).Alone) ∧ Run.Along step Spares {} moves := by
  intro h
  have htwo : ⟨0, of "key", 1, 301⟩ ∈ (Run.stateAt step {} sharedMoves 5).holdings ∧
      ⟨0, of "key", 2, 301⟩ ∈ (Run.stateAt step {} sharedMoves 5).holdings ∧
      (Run.stateAt step {} sharedMoves 5).world.now = 301 := by decide +kernel
  obtain ⟨hsecond, hthird, hnow⟩ := htwo
  have hearly : (Run.stateAt step {} sharedMoves 5).world.now < 301 + defaultLockTtl := by
    rw [hnow]
    norm_num [defaultLockTtl]
  have heq := (h sharedMoves).1 5 _ hsecond _ hthird rfl hearly hearly
  exact absurd heq (by decide)

end Coordinators

end WolfNas
