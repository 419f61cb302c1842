import WolfNas.Lock.Coordinator

/-!
# Locks as their owners know them

The owner of a lock knows what its calls have returned: until when the lock was granted to it, or
extended.  The database gives the lock to nobody else before that time is over, whatever the others
do, and what a late owner does leaves a row that another one has taken over as it is.

## Main definitions

* `LockWorld.acquired`, `LockWorld.extended` — what `acquire` and `extend` return.
* `LeasedLocks`, `LeasedLocks.step` — the locks, and until when each was promised to its owner.
* `LeasedLocks.Has` — the owner has the lock, by what it was promised or by the row.
* `LeasedLocks.Spares` — a late release or extension.

## Main results

* `LeasedLocks.kept_step` — a promise is kept by every move.
* `LeasedLocks.rows_exclusive` — nobody else has the lock, in every run.
-/

namespace WolfNas

open Text

namespace LockWorld

variable {st : LockWorld} {i : ℕ} {x : LockObject} {answer : StoreAnswer} {seconds : ℤ}

/-- What `acquire` returns. -/
def acquired (st : LockWorld) (i : ℕ) (x : LockObject) (answer : StoreAnswer) : Bool :=
  answer = .answered ∧ (st.grant i x).isSome

/-- What `extend` returns. -/
def extended (st : LockWorld) (i : ℕ) (x : LockObject) (answer : StoreAnswer) : Bool :=
  x.owned && decide (answer = .answered) &&
    match x.backend with
    | .redis => st.redis.owner st.now x.key = some i
    | .database => (st.db x.key).map Prod.fst = some i

/-- A lock that is extended lasts as long as that. -/
theorem keeps_extend (h : st.extended i x answer) :
    (st.extend i x seconds answer).Keeps i x.backend x.key (st.now + seconds) := by
  obtain ⟨name, ttl, backend, owned⟩ := x
  simp only [extended, Bool.and_eq_true, decide_eq_true_eq] at h
  obtain ⟨⟨howned, rfl⟩, htoken⟩ := h
  intro t _ ht
  have hcall : owned = true ∧ StoreAnswer.answered ≠ .lost := ⟨howned, by decide⟩
  cases backend with
  | redis =>
    have howner : st.redis.owner st.now name = some i := of_decide_eq_true htoken
    rw [extend, if_pos hcall]
    change RedisLocks.owner (RedisLocks.extend _ _ _ _ _) t name = some i
    rw [RedisLocks.extend, if_pos howner, RedisLocks.owner_update, if_pos rfl, if_pos ht]
  | database =>
    have hrow : (st.db name).map Prod.fst = some i := of_decide_eq_true htoken
    have hfloor : ⌊t⌋ ≤ ⌊st.now + (seconds : ℚ)⌋ := Int.floor_le_floor ht.le
    rw [Int.floor_add_intCast] at hfloor
    rw [extend, if_pos hcall]
    change DbLocks.owner (DbLocks.extend _ _ _ _ _) t name = some i
    rw [DbLocks.extend, if_pos hrow, DbLocks.owner_update, if_pos rfl,
      if_neg (by dsimp only; omega)]

/-- A lock is extended by a lock object that owns it. -/
theorem owns_of_extended (hx : st.locks[i]? = some x) (h : st.extended i x answer) :
    st.Owns i x.backend x.key := by
  simp only [extended, Bool.and_eq_true] at h
  exact ⟨x, hx, rfl, rfl, h.1.1⟩

/-- A lock that is acquired is owned, and lasts for its time to live. -/
theorem lasting_of_acquired (hx : st.locks[i]? = some x) (h : st.acquired i x answer) :
    (st.acquire i x answer).Owns i x.backend x.key ∧
      (st.acquire i x answer).Keeps i x.backend x.key (st.now + x.ttlSeconds) := by
  obtain ⟨rfl, hsome⟩ := of_decide_eq_true h
  obtain ⟨st', hgrant⟩ := Option.isSome_iff_exists.mp hsome
  simp only [acquire, hgrant]
  refine ⟨⟨{ x with owned := true }, ?_, rfl, rfl, rfl⟩, fun t h₁ h₂ => keeps_grant hgrant t h₁ h₂⟩
  rw [(grant_spec hgrant).1]
  exact List.getElem?_set_self (List.getElem?_eq_some_iff.mp hx).1

end LockWorld

/-! ## What the owners know -/

/-- The locks, and until when each was promised to its owner. -/
structure LeasedLocks where
  world : LockWorld := {}
  deadline : ℕ → Option ℚ := fun _ => none

namespace LeasedLocks

variable (s : LeasedLocks)

/-- What the owners know after a move: the lock is theirs from when it is granted, for its time to
live, or as long as it was extended; no longer when an extension fails. -/
def deadlines : LockMove → ℕ → Option ℚ
  | .acquire i answer => (s.world.locks[i]?).elim s.deadline fun x =>
    if s.world.acquired i x answer then
      Function.update s.deadline i (some (s.world.now + x.ttlSeconds))
    else s.deadline
  | .release i _ => Function.update s.deadline i none
  | .extend i seconds answer => (s.world.locks[i]?).elim s.deadline fun x =>
    Function.update s.deadline i
      (if s.world.extended i x answer then some (s.world.now + seconds) else none)
  | .create _ _ _ | .tick _ => s.deadline

/-- One move. -/
def step (s : LeasedLocks) (move : LockMove) : LeasedLocks where
  world := s.world.step move
  deadline := s.deadlines move

/-- The lock object has the name in the database: it was promised it for longer, or the row of the
name has its token and cannot be taken over. -/
def Has (i : ℕ) (key : Text) : Prop :=
  (∃ x, s.world.locks[i]? = some x ∧ x.backend = .database ∧ x.key = key ∧
    ∃ d, s.deadline i = some d ∧ s.world.now < d) ∨
  s.world.db.owner s.world.now key = some i

/-- The lock object that gives its lock back or extends it. -/
def returning : LockMove → Option ℕ
  | .release i _ | .extend i _ _ => some i
  | .create _ _ _ | .acquire _ _ | .tick _ => none

/-- A release or an extension leaves a row that has the token of another lock object as it is, and
that one has what it had. -/
def Spares (s : LeasedLocks) (move : LockMove) : Prop :=
  ∀ i ∈ returning move, ∀ key j expires, s.world.db key = some (j, expires) → j ≠ i →
    (s.step move).world.db key = some (j, expires) ∧ (s.step move).deadline j = s.deadline j

/-! ## Promises are kept -/

/-- What is promised is kept. -/
def Kept (s : LeasedLocks) : Prop :=
  ∀ i d, s.deadline i = some d → ∃ backend key,
    s.world.Owns i backend key ∧ s.world.Keeps i backend key d

variable {s} {i : ℕ} {d : ℚ}

/-- A promise that was made before is kept, where the lock is neither released nor extended. -/
theorem kept_of_ne {move : LockMove} (hkept : s.Kept) (hd : s.deadline i = some d)
    (hne : returning move ≠ some i) : ∃ backend key,
      (s.step move).world.Owns i backend key ∧ (s.step move).world.Keeps i backend key d := by
  obtain ⟨backend, key, howns, hkeeps⟩ := hkept i d hd
  have hrelease : ∀ answer, move ≠ .release i answer := by
    rintro answer rfl
    exact hne rfl
  refine ⟨backend, key, LockWorld.owns_step howns hrelease, LockWorld.keeps_step hkeeps hrelease ?_⟩
  rintro seconds answer rfl
  exact absurd rfl hne

/-- **One move** keeps every promise. -/
theorem kept_step (hkept : s.Kept) (move : LockMove) : (s.step move).Kept := by
  intro i d hd
  change s.deadlines move i = some d at hd
  cases move with
  | create name ttl ping => exact kept_of_ne hkept hd (by simp [returning])
  | tick now => exact kept_of_ne hkept hd (by simp [returning])
  | release j answer =>
    by_cases hj : i = j
    · subst hj
      simp [deadlines] at hd
    · rw [deadlines, Function.update_of_ne hj] at hd
      exact kept_of_ne hkept hd (by simp [returning, Ne.symm hj])
  | acquire j answer =>
    cases hx : s.world.locks[j]? with
    | none =>
      rw [deadlines, hx] at hd
      exact kept_of_ne hkept hd (by simp [returning])
    | some x =>
      simp only [deadlines, hx, Option.elim_some] at hd
      split_ifs at hd with hacquired
      · by_cases hj : i = j
        · subst hj
          obtain rfl : s.world.now + x.ttlSeconds = d := by simpa using hd
          have hlasting := LockWorld.lasting_of_acquired hx hacquired
          refine ⟨x.backend, x.key, ?_⟩
          simpa only [step, LockWorld.step, hx, Option.elim_some] using hlasting
        · rw [Function.update_of_ne hj] at hd
          exact kept_of_ne hkept hd (by simp [returning])
      · exact kept_of_ne hkept hd (by simp [returning])
  | extend j seconds answer =>
    cases hx : s.world.locks[j]? with
    | none =>
      simp only [deadlines, hx, Option.elim_none] at hd
      by_cases hj : i = j
      · subst hj
        obtain ⟨backend, key, ⟨y, hy, -⟩, -⟩ := hkept i d hd
        rw [hx] at hy
        cases hy
      · exact kept_of_ne hkept hd (by simp [returning, Ne.symm hj])
    | some x =>
      simp only [deadlines, hx, Option.elim_some] at hd
      by_cases hj : i = j
      · subst hj
        rw [Function.update_self] at hd
        split_ifs at hd with hextended
        obtain rfl := Option.some.inj hd
        have howns : (s.world.step (.extend i seconds answer)).Owns i x.backend x.key :=
          LockWorld.owns_step (LockWorld.owns_of_extended hx hextended)
            fun answer h => by simp at h
        have hkeeps : (s.world.extend i x seconds answer).Keeps i x.backend x.key
            (s.world.now + seconds) := LockWorld.keeps_extend hextended
        refine ⟨x.backend, x.key, howns, ?_⟩
        simpa only [step, LockWorld.step, hx, Option.elim_some] using hkeeps
      · rw [Function.update_of_ne hj] at hd
        exact kept_of_ne hkept hd (by simp [returning, Ne.symm hj])

/-- The row is the owner's, where the promises are kept. -/
theorem owner_of_has {key : Text} (hkept : s.Kept) (h : s.Has i key) :
    s.world.db.owner s.world.now key = some i := by
  rcases h with ⟨x, hx, hbackend, rfl, d, hd, hnow⟩ | h
  · obtain ⟨backend, key, ⟨y, hy, rfl, rfl, -⟩, hkeeps⟩ := hkept i d hd
    obtain rfl : x = y := Option.some.inj (hx.symm.trans hy)
    have howner := hkeeps s.world.now le_rfl hnow
    rwa [hbackend] at howner
  · exact h

/-! ## Late owners -/

/-- A row with another token is not released. -/
theorem row_release {locks : DbLocks} {key name : Text} {row : ℕ × ℤ} (hrow : locks key = some row)
    (hne : row.1 ≠ i) : locks.release name i key = some row := by
  unfold DbLocks.release
  split_ifs with htoken
  · have hkey : key ≠ name := by
      rintro rfl
      rw [hrow] at htoken
      exact hne (Option.some.inj htoken)
    rwa [Function.update_of_ne hkey]
  · exact hrow

/-- A row with another token is not extended. -/
theorem row_extend {locks : DbLocks} {now : ℚ} {seconds : ℤ} {key name : Text} {row : ℕ × ℤ}
    (hrow : locks key = some row) (hne : row.1 ≠ i) :
    locks.extend now name i seconds key = some row := by
  unfold DbLocks.extend
  split_ifs with htoken
  · have hkey : key ≠ name := by
      rintro rfl
      rw [hrow] at htoken
      exact hne (Option.some.inj htoken)
    rwa [Function.update_of_ne hkey]
  · exact hrow

/-- What a late owner does leaves the lock of the next one as it is. -/
theorem spares (s : LeasedLocks) (move : LockMove) : s.Spares move := by
  intro i hi key j expires hrow hne
  cases move with
  | create name ttl ping => cases hi
  | acquire k answer => cases hi
  | tick now => cases hi
  | release k answer =>
    obtain rfl : k = i := Option.some.inj hi
    refine ⟨?_, Function.update_of_ne hne _ _⟩
    cases hx : s.world.locks[k]? with
    | none => simpa only [step, LockWorld.step, hx, Option.elim_none] using hrow
    | some x =>
      simp only [step, LockWorld.step, hx, Option.elim_some, LockWorld.release, LockWorld.unset]
      split_ifs
      · split
        · exact hrow
        · exact hrow
        · exact row_release hrow hne
      · exact hrow
  | extend k seconds answer =>
    obtain rfl : k = i := Option.some.inj hi
    cases hx : s.world.locks[k]? with
    | none =>
      refine ⟨?_, ?_⟩
      · simpa only [step, LockWorld.step, hx, Option.elim_none] using hrow
      · simp only [step, deadlines, hx, Option.elim_none]
    | some x =>
      simp only [step, LockWorld.step, deadlines, hx, Option.elim_some, LockWorld.extend]
      refine ⟨?_, Function.update_of_ne hne _ _⟩
      split_ifs
      · cases x.backend with
        | redis => exact hrow
        | database => exact row_extend hrow hne
      · exact hrow

/-! ## Runs -/

/-- **Database locks**: at no time of a run do two lock objects have one name, and no release or
extension affects a lock that another lock object has taken over. -/
theorem rows_exclusive (moves : List LockMove) :
    (∀ n i j key, (Run.stateAt step {} moves n).Has i key →
      (Run.stateAt step {} moves n).Has j key → i = j) ∧
    Run.Along step Spares {} moves := by
  constructor
  · intro n i j key hi hj
    have hkept : (Run.stateAt step {} moves n).Kept := by
      refine Run.invariant Kept nofun ?_
      intro s hs move _
      exact kept_step hs move
    exact Option.some.inj ((owner_of_has hkept hi).symm.trans (owner_of_has hkept hj))
  · exact Run.along_of_forall spares {} moves

end LeasedLocks

end WolfNas
