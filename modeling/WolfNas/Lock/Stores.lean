import WolfNas.Lib.Text
import Mathlib.Data.Rat.Floor
import Mathlib.Logic.Function.Basic
import Mathlib.Tactic.Linarith

/-!
# Lock stores

A lock is an entry under its name in Redis or in the database, with the token of the lock object
that it was granted to and the time at which it expires.

## Main definitions

* `RedisLocks.setNx`, `RedisLocks.release`, `RedisLocks.extend` — the commands of a Redis lock.
* `DbLocks.acquire`, `DbLocks.release`, `DbLocks.extend` — the repository calls of a database lock.
* `RedisLocks.owner`, `DbLocks.owner` — the token of a lock that has not expired.
-/

namespace WolfNas

open Text

/-- The locks in Redis: tokens, and when the keys expire. -/
abbrev RedisLocks := Text → Option (ℕ × ℚ)

namespace RedisLocks

variable (locks : RedisLocks) (now : ℚ) (key : Text) (token : ℕ)

/-- The token under a key that has not expired. -/
def owner : Option ℕ :=
  match locks key with
  | none => none
  | some (token, expires) => if now < expires then some token else none

/-- `SET key token NX EX ttl`; none where it sets nothing. -/
def setNx (ttl : ℤ) : Option RedisLocks :=
  if 0 < ttl ∧ locks.owner now key = none then
    some (Function.update locks key (some (token, now + ttl)))
  else none

/-- `_RELEASE_SCRIPT`. -/
def release : RedisLocks :=
  if locks.owner now key = some token then Function.update locks key none else locks

/-- `_EXTEND_SCRIPT`. -/
def extend (seconds : ℤ) : RedisLocks :=
  if locks.owner now key = some token then
    Function.update locks key (some (token, now + seconds))
  else locks

variable {locks now key token}

theorem owner_update (cell : ℕ × ℚ) (k : Text) :
    owner (Function.update locks key (some cell)) now k =
      if k = key then if now < cell.2 then some cell.1 else none else locks.owner now k := by
  unfold owner
  split_ifs with hk hlive
  · subst hk
    simp [hlive]
  · subst hk
    simp [hlive]
  · rw [Function.update_of_ne hk]

theorem owner_delete (k : Text) : owner (Function.update locks key none) now k =
    if k = key then none else locks.owner now k := by
  unfold owner
  split_ifs with hk
  · subst hk
    simp
  · rw [Function.update_of_ne hk]

/-- A key is set where it is free. -/
theorem owner_setNx {ttl : ℤ} {locks' : RedisLocks}
    (h : locks.setNx now key token ttl = some locks') :
    0 < ttl ∧ locks.owner now key = none ∧
      ∀ k, locks'.owner now k = if k = key then some token else locks.owner now k := by
  unfold setNx at h
  split_ifs at h with hfree
  obtain rfl := Option.some.inj h
  refine ⟨hfree.1, hfree.2, fun k => ?_⟩
  have hlater : now < now + (ttl : ℚ) := by
    have hpos : (0 : ℚ) < ttl := by exact_mod_cast hfree.1
    linarith
  rw [owner_update, if_pos hlater]

theorem owner_of_release {k : Text} {a : ℕ} (h : (locks.release now key token).owner now k = some a) :
    locks.owner now k = some a := by
  unfold release at h
  split_ifs at h
  · rw [owner_delete] at h
    split_ifs at h
    exact h
  · exact h

/-- A key is extended by its owner only. -/
theorem owner_of_extend {seconds : ℤ} {k : Text} {a : ℕ}
    (h : (locks.extend now key token seconds).owner now k = some a) :
    locks.owner now k = some a := by
  unfold extend at h
  split_ifs at h with howner
  · rw [owner_update] at h
    split_ifs at h with hk hlive
    · subst hk
      exact howner.trans h
    · exact h
  · exact h

/-- A key that has not expired later has not expired before. -/
theorem owner_of_le {now' : ℚ} (hle : now ≤ now') {k : Text} {a : ℕ}
    (h : locks.owner now' k = some a) : locks.owner now k = some a := by
  unfold owner at h ⊢
  split at h
  · cases h
  · split_ifs at h with hlive
    rw [if_pos (hle.trans_lt hlive)]
    exact h

/-! ### A key that another token has -/

variable {a : ℕ} {k : Text} {t : ℚ}

theorem owner_setNx_of_owner (howner : locks.owner now k = some a) {ttl : ℤ} {locks' : RedisLocks}
    (h : locks.setNx now key token ttl = some locks') : locks'.owner t k = locks.owner t k := by
  unfold setNx at h
  split_ifs at h with hfree
  obtain rfl := Option.some.inj h
  have hne : k ≠ key := by
    rintro rfl
    rw [howner] at hfree
    cases hfree.2
  rw [owner_update, if_neg hne]

theorem owner_release_of_owner (howner : locks.owner now k = some a) (hne : token ≠ a) :
    (locks.release now key token).owner t k = locks.owner t k := by
  unfold release
  split_ifs with htoken
  · have hkey : k ≠ key := by
      rintro rfl
      exact hne (Option.some.inj (htoken.symm.trans howner))
    rw [owner_delete, if_neg hkey]
  · rfl

theorem owner_extend_of_owner (howner : locks.owner now k = some a) (hne : token ≠ a)
    {seconds : ℤ} : (locks.extend now key token seconds).owner t k = locks.owner t k := by
  unfold extend
  split_ifs with htoken
  · have hkey : k ≠ key := by
      rintro rfl
      exact hne (Option.some.inj (htoken.symm.trans howner))
    rw [owner_update, if_neg hkey]
  · rfl

/-- A key whose owner extends it. -/
theorem owner_extend_self {seconds : ℤ} (ht : t < now + seconds)
    (hbefore : locks.owner t k = some a) :
    (locks.extend now key a seconds).owner t k = some a := by
  unfold extend
  split_ifs
  · rw [owner_update]
    split_ifs
    · rfl
    · exact hbefore
  · exact hbefore

end RedisLocks

/-- The locks in the database: tokens, and `EXPIRES_AT`. -/
abbrev DbLocks := Text → Option (ℕ × ℤ)

namespace DbLocks

variable (locks : DbLocks) (now : ℚ) (key : Text) (token : ℕ)

/-- The token of a row that cannot be taken over. -/
def owner : Option ℕ :=
  match locks key with
  | none => none
  | some (token, expires) => if expires < ⌊now⌋ then none else some token

/-- `DistributedLockRepository.acquire`; none where it is refused. -/
def acquire (ttl : ℤ) : Option DbLocks :=
  match locks key with
  | none => some (Function.update locks key (some (token, ⌊now⌋ + ttl)))
  | some (_, expires) =>
    if expires < ⌊now⌋ then some (Function.update locks key (some (token, ⌊now⌋ + ttl))) else none

/-- `DistributedLockRepository.release`. -/
def release : DbLocks :=
  if (locks key).map Prod.fst = some token then Function.update locks key none else locks

/-- `DistributedLockRepository.extend`. -/
def extend (seconds : ℤ) : DbLocks :=
  if (locks key).map Prod.fst = some token then
    Function.update locks key (some (token, ⌊now⌋ + seconds))
  else locks

variable {locks now key token}

theorem owner_update (cell : ℕ × ℤ) (k : Text) :
    owner (Function.update locks key (some cell)) now k =
      if k = key then if cell.2 < ⌊now⌋ then none else some cell.1 else locks.owner now k := by
  unfold owner
  split_ifs with hk hdead
  · subst hk
    simp [hdead]
  · subst hk
    simp [hdead]
  · rw [Function.update_of_ne hk]

theorem owner_delete (k : Text) : owner (Function.update locks key none) now k =
    if k = key then none else locks.owner now k := by
  unfold owner
  split_ifs with hk
  · subst hk
    simp
  · rw [Function.update_of_ne hk]

/-- A row is inserted, or taken over where it has expired. -/
theorem acquire_eq (ttl : ℤ) : locks.acquire now key token ttl =
    if locks.owner now key = none then
      some (Function.update locks key (some (token, ⌊now⌋ + ttl))) else none := by
  unfold acquire owner
  split
  · simp
  · rename_i a expires hrow
    by_cases hdead : expires < ⌊now⌋
    · simp [hdead]
    · simp [hdead]

theorem owner_acquire {ttl : ℤ} {locks' : DbLocks}
    (h : locks.acquire now key token ttl = some locks') :
    locks.owner now key = none ∧ ∀ k, locks'.owner now k =
      if k = key then if ttl < 0 then none else some token else locks.owner now k := by
  rw [acquire_eq] at h
  split_ifs at h with hfree
  obtain rfl := Option.some.inj h
  refine ⟨hfree, fun k => ?_⟩
  have hiff : ⌊now⌋ + ttl < ⌊now⌋ ↔ ttl < 0 := by omega
  rw [owner_update]
  simp only [hiff]

theorem owner_of_release {k : Text} {a : ℕ} (h : (locks.release key token).owner now k = some a) :
    locks.owner now k = some a := by
  unfold release at h
  split_ifs at h
  · rw [owner_delete] at h
    split_ifs at h
    exact h
  · exact h

/-- A row is extended by the holder of its token, also where it has expired. -/
theorem owner_of_extend {seconds : ℤ} {k : Text} {a : ℕ}
    (h : (locks.extend now key token seconds).owner now k = some a) :
    locks.owner now k = some a ∨ (k = key ∧ a = token ∧ 0 ≤ seconds ∧
      (locks key).map Prod.fst = some token ∧ locks.owner now key = none) := by
  unfold extend at h
  split_ifs at h with htoken
  · rw [owner_update] at h
    split_ifs at h with hk hdead
    · subst hk
      obtain rfl := Option.some.inj h
      by_cases hfree : locks.owner now k = none
      · exact .inr ⟨rfl, rfl, by omega, htoken, hfree⟩
      · left
        obtain ⟨⟨b, expires⟩, hrow, hb⟩ := Option.map_eq_some_iff.mp htoken
        obtain rfl : b = token := hb
        unfold owner at hfree ⊢
        rw [hrow] at hfree ⊢
        dsimp only at hfree ⊢
        split_ifs at hfree ⊢
        · exact absurd rfl hfree
        · rfl
    · exact .inl h
  · exact .inl h

theorem owner_of_le {now' : ℚ} (hle : now ≤ now') {k : Text} {a : ℕ}
    (h : locks.owner now' k = some a) : locks.owner now k = some a := by
  unfold owner at h ⊢
  split at h
  · cases h
  · rename_i b expires hrow
    split_ifs at h with hdead
    have hfloor : ⌊now⌋ ≤ ⌊now'⌋ := Int.floor_le_floor hle
    rw [if_neg (by omega)]
    exact h

/-! ### A row that another token has -/

variable {a : ℕ} {k : Text} {t : ℚ}

/-- The token of a row that cannot be taken over. -/
theorem token_of_owner (h : locks.owner now k = some a) : (locks k).map Prod.fst = some a := by
  unfold owner at h
  split at h
  · cases h
  · rename_i b expires hrow
    split_ifs at h
    rw [hrow]
    exact h

theorem owner_acquire_of_owner (howner : locks.owner now k = some a) {ttl : ℤ} {locks' : DbLocks}
    (h : locks.acquire now key token ttl = some locks') : locks'.owner t k = locks.owner t k := by
  rw [acquire_eq] at h
  split_ifs at h with hfree
  obtain rfl := Option.some.inj h
  have hne : k ≠ key := by
    rintro rfl
    rw [howner] at hfree
    cases hfree
  rw [owner_update, if_neg hne]

theorem owner_release_of_owner (howner : locks.owner now k = some a) (hne : token ≠ a) :
    (locks.release key token).owner t k = locks.owner t k := by
  unfold release
  split_ifs with htoken
  · have hkey : k ≠ key := by
      rintro rfl
      exact hne (Option.some.inj (htoken.symm.trans (token_of_owner howner)))
    rw [owner_delete, if_neg hkey]
  · rfl

theorem owner_extend_of_owner (howner : locks.owner now k = some a) (hne : token ≠ a)
    {seconds : ℤ} : (locks.extend now key token seconds).owner t k = locks.owner t k := by
  unfold extend
  split_ifs with htoken
  · have hkey : k ≠ key := by
      rintro rfl
      exact hne (Option.some.inj (htoken.symm.trans (token_of_owner howner)))
    rw [owner_update, if_neg hkey]
  · rfl

/-- A row that the holder of its token extends. -/
theorem owner_extend_self {seconds : ℤ} (ht : t < now + seconds)
    (hbefore : locks.owner t k = some a) :
    (locks.extend now key a seconds).owner t k = some a := by
  unfold extend
  split_ifs
  · rw [owner_update]
    split_ifs with hk hdead
    · have hfloor : ⌊t⌋ ≤ ⌊now + (seconds : ℚ)⌋ := Int.floor_le_floor ht.le
      rw [Int.floor_add_intCast] at hfloor
      dsimp only at hdead
      omega
    · rfl
    · exact hbefore
  · exact hbefore

end DbLocks

end WolfNas
