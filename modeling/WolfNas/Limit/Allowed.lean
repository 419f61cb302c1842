import WolfNas.Lib.Run
import WolfNas.Lib.Window
import WolfNas.Limit.Backends
import Mathlib.Data.NNRat.Defs

/-!
# How often a key is allowed

The limiter of the old interface takes a limit and a window in seconds, and asks its backend for a
thousand times the rate.  In memory its window is a thousandth of the one that was asked for; in
Redis its bucket fills in a thousandth of the time.

## Main definitions

* `AllowedCall`, `AllowedRun` — calls of `is_allowed` one after another.
* `AllowedRun.Full` — the backend has nothing left for a call.
* `AllowedRun.InTime` — it has nothing left where the limit is reached in the window asked for.

## Main results

* `AllowedRun.allowed_iff` — a key is allowed no more than its limit in every window exactly where
  every call of it is such a call; and in all runs exactly where it has no limit or no window.
* `AllowedRun.allowed_twice` — a limit of one in a minute allows two calls in one minute.
-/

namespace WolfNas

open Text

namespace RateLimiter

/-- A new limiter. -/
def new (redis : Bool) : RateLimiter := if redis then .redis fun _ => none else .memory fun _ => []

/-- The time that the backend reads, in seconds. -/
def reads : RateLimiter → ℚ → ℚ
  | .redis _, now => RedisTokenBucketBackend.millis now / 1000
  | .memory _, now => now

end RateLimiter

/-- A call of `is_allowed`, some time after the last one. -/
structure AllowedCall where
  key : Text
  later : ℚ≥0
  link : RedisLink := .answered

/-- The limiter, its clock, and the calls that it allowed, by the time it read. -/
structure AllowedRun where
  limiter : RateLimiter
  clock : ℚ := 0
  granted : List (Text × ℚ) := []

namespace AllowedRun

/-- A new limiter. -/
def new (redis : Bool) : AllowedRun := { limiter := .new redis }

/-- The time that a call reads. -/
def time (r : AllowedRun) (c : AllowedCall) : ℚ := r.limiter.reads (r.clock + c.later)

/-- The times at which a key was allowed. -/
def timesOf (key : Text) (granted : List (Text × ℚ)) : List ℚ :=
  (granted.filter fun p => p.1 = key).map Prod.snd

/-- The answer to a call, where each key has its limit and its window. -/
def asked (settings : Text → ℤ × ℤ) (r : AllowedRun) (c : AllowedCall) :
    Admission × RateLimiter :=
  r.limiter.isAllowed c.key (settings c.key).1 (settings c.key).2 (r.clock + c.later) c.link

/-- One call. -/
def step (settings : Text → ℤ × ℤ) (r : AllowedRun) (c : AllowedCall) : AllowedRun :=
  { limiter := (r.asked settings c).2
    clock := r.clock + c.later
    granted := if (r.asked settings c).1 = .granted then r.granted ++ [(c.key, r.time c)]
      else r.granted }

/-- The backend has nothing left: in memory, the limit is reached in a thousandth of the window;
Redis answers, and the bucket, filled up at the limit in a window of milliseconds, has no token. -/
def Full (settings : Text → ℤ × ℤ) (r : AllowedRun) (c : AllowedCall) : Prop :=
  let (limit, window) := settings c.key
  match r.limiter with
  | .memory _ => limit ≤ Window.countIn (r.time c - window / 1000) (r.time c) (timesOf c.key r.granted)
  | .redis keys => c.link = .answered ∧
      TokenBucket.filled (limit / window) limit (RedisTokenBucketBackend.millis (r.clock + c.later))
        ((keys.live c.key (r.clock + c.later)).map RedisBucket.bucket) < 1

/-- Where the limit is reached in the window, the backend has nothing left. -/
def InTime (settings : Text → ℤ × ℤ) (r : AllowedRun) (c : AllowedCall) : Prop :=
  let (limit, window) := settings c.key
  0 < window →
    limit ≤ Window.countIn (r.time c - window) (r.time c) (timesOf c.key r.granted) →
    r.Full settings c

/-- A key is allowed no more often than its limit in any window of its length. -/
def Within (settings : Text → ℤ × ℤ) (key : Text) (r : AllowedRun) : Prop :=
  Window.AtMost (settings key).1.toNat (settings key).2 (timesOf key r.granted)

variable {settings : Text → ℤ × ℤ} {key : Text} {redis : Bool} {r : AllowedRun} {c : AllowedCall}

/-! ## What the limiter keeps -/

/-- What holds after every call, for one key. -/
structure Good (settings : Text → ℤ × ℤ) (key : Text) (r : AllowedRun) : Prop where
  /-- In memory, only what is older than the thousandth of the window is forgotten. -/
  remembers : ∀ windows, r.limiter = .memory windows → 0 < (settings key).2 →
    0 < (settings key).1 →
    Window.Remembers (r.clock - (settings key).2 / 1000) (timesOf key r.granted) (windows key)
  sorted : (timesOf key r.granted).Pairwise (· ≤ ·)
  le_reads : ∀ t ∈ timesOf key r.granted, t ≤ r.limiter.reads r.clock

theorem le_clock (r : AllowedRun) (c : AllowedCall) : r.clock ≤ r.clock + c.later := by
  have hlater : (0 : ℚ) ≤ c.later := c.later.2
  linarith

theorem reads_mono (l : RateLimiter) {t t' : ℚ} (h : t ≤ t') : l.reads t ≤ l.reads t' := by
  cases l with
  | memory _ => exact h
  | redis _ =>
    have hcast : (RedisTokenBucketBackend.millis t : ℚ) ≤ RedisTokenBucketBackend.millis t' := by
      exact_mod_cast RedisTokenBucketBackend.millis_mono h
    simp only [RateLimiter.reads]
    linarith

theorem reads_asked (t : ℚ) : (r.asked settings c).2.reads t = r.limiter.reads t := by
  simp only [asked, RateLimiter.isAllowed]
  split_ifs
  · rfl
  · cases r.limiter with
    | memory _ => rfl
    | redis _ => rfl

theorem good_new : (new redis).Good settings key := by
  refine ⟨?_, List.Pairwise.nil, by simp [new, timesOf]⟩
  intro windows hlimiter _ _
  cases redis with
  | false =>
    obtain rfl : (fun _ => []) = windows := RateLimiter.memory.inj hlimiter
    exact .refl
  | true => cases hlimiter

/-- No time of a key is later than that of a call. -/
theorem Good.le_time (h : r.Good settings key) (c : AllowedCall) :
    ∀ t ∈ timesOf key r.granted, t ≤ r.time c :=
  fun t ht => (h.le_reads t ht).trans (reads_mono _ (r.le_clock c))

/-- The windows after a call. -/
theorem memory_asked {windows : MemorySlidingWindowBackend} (hlimiter : r.limiter = .memory windows)
    (hwindow : 0 < (settings c.key).2) (hlimit : 0 < (settings c.key).1) :
    let since := r.clock + c.later - (settings c.key).2 / 1000
    let left := (windows c.key).dropWhile fun t => t < since
    r.asked settings c = if left.length + 1 ≤ (settings c.key).1 then
      (.granted, .memory (Function.update windows c.key (left ++ [r.clock + c.later])))
      else (.refused, .memory (Function.update windows c.key left)) := by
  have hlimit' : (0 : ℚ) < (settings c.key).1 := by exact_mod_cast hlimit
  have hwindow' : (0 : ℚ) < (settings c.key).2 := by exact_mod_cast hwindow
  have hrate : 0 < ((settings c.key).1 : ℚ) / (settings c.key).2 * 1000 := by positivity
  have hlength : ((settings c.key).1 : ℚ) / ((settings c.key).1 / (settings c.key).2 * 1000) =
      (settings c.key).2 / 1000 := by
    field_simp
  simp only [asked, RateLimiter.isAllowed, if_neg hwindow.ne', hlimiter,
    MemorySlidingWindowBackend.acquire, if_pos hrate, hlength, Nat.cast_one]
  split_ifs <;> rfl

/-- A call of another key. -/
theorem memory_asked_of_ne {windows windows' : MemorySlidingWindowBackend} (hne : key ≠ c.key)
    (hlimiter : r.limiter = .memory windows) (hasked : (r.asked settings c).2 = .memory windows') :
    windows' key = windows key := by
  simp only [asked, RateLimiter.isAllowed, hlimiter, MemorySlidingWindowBackend.acquire] at hasked
  split_ifs at hasked <;> cases hasked
  all_goals simp [Function.update_of_ne hne]

/-- What a call adds to the times of a key. -/
theorem timesOf_step : timesOf key (r.step settings c).granted = timesOf key r.granted ++
    if c.key = key ∧ (r.asked settings c).1 = .granted then [r.time c] else [] := by
  by_cases hgranted : (r.asked settings c).1 = .granted
  · by_cases hkey : c.key = key
    · simp [step, hgranted, timesOf, hkey]
    · simp [step, hgranted, timesOf, hkey]
  · simp [step, hgranted]

theorem le_burst_of_granted {windows : MemorySlidingWindowBackend} {rate now : ℚ} {burst : ℤ}
    {tokens : ℕ} (hgranted : (windows.acquire key rate burst tokens now).1 = .granted) :
    (tokens : ℤ) ≤ burst := by
  rw [MemorySlidingWindowBackend.acquire] at hgranted
  by_contra hmore
  rw [if_neg (by omega)] at hgranted
  cases hgranted

/-- **What a call grants** in memory, where its window is some seconds long. -/
theorem memory_granted_iff (h : r.Good settings c.key) {windows : MemorySlidingWindowBackend}
    (hlimiter : r.limiter = .memory windows) (hwindow : 0 < (settings c.key).2) :
    (r.asked settings c).1 = .granted ↔ ¬r.Full settings c := by
  have hfull : r.Full settings c ↔ (settings c.key).1 ≤ Window.countIn
      (r.clock + c.later - (settings c.key).2 / 1000) (r.clock + c.later)
        (timesOf c.key r.granted) := by
    simp only [Full, hlimiter, time, RateLimiter.reads]
  rw [hfull]
  by_cases hlimit : 0 < (settings c.key).1
  · have hle := h.le_time c
    simp only [time, hlimiter, RateLimiter.reads] at hle
    have hlength := (h.remembers windows hlimiter hwindow hlimit).length_dropWhile
      (sub_le_sub_right (r.le_clock c) _) h.sorted hle
    have hasked := memory_asked hlimiter hwindow hlimit
    simp only [hlength] at hasked
    rw [hasked]
    split_ifs with hroom
    · simp only [true_iff]
      omega
    · simp only [false_iff, not_not]
      omega
  · have hrefused : (r.asked settings c).1 ≠ .granted := by
      simp only [asked, RateLimiter.isAllowed, if_neg hwindow.ne', hlimiter]
      intro hgranted
      have hroom := le_burst_of_granted hgranted
      push_cast at hroom
      omega
    simp only [hrefused, false_iff, not_not]
    omega

/-- What a call grants in Redis. -/
theorem redis_granted_iff {keys : RedisTokenBucketBackend} (hlimiter : r.limiter = .redis keys)
    (hwindow : 0 < (settings c.key).2) :
    (r.asked settings c).1 = .granted ↔ ¬r.Full settings c := by
  have hrate : ((settings c.key).1 : ℚ) / (settings c.key).2 * 1000 / 1000 =
      (settings c.key).1 / (settings c.key).2 := by
    field_simp
  have htake : (keys.script c.key ((settings c.key).1 / (settings c.key).2 * 1000)
      (settings c.key).1 1 (r.clock + c.later)).1 = .granted ↔
        1 ≤ TokenBucket.filled ((settings c.key).1 / (settings c.key).2) (settings c.key).1
          (RedisTokenBucketBackend.millis (r.clock + c.later))
          ((keys.live c.key (r.clock + c.later)).map RedisBucket.bucket) := by
    have hgranted := @Admission.ofBool_eq_granted (TokenBucket.take
      ((settings c.key).1 / (settings c.key).2 * 1000 / 1000) (settings c.key).1 (1 : ℕ)
      (RedisTokenBucketBackend.millis (r.clock + c.later))
      ((keys.live c.key (r.clock + c.later)).map RedisBucket.bucket)).1
    rw [TokenBucket.take_eq_true_iff, hrate, Nat.cast_one] at hgranted
    rw [← hgranted, RedisTokenBucketBackend.script, hrate, Nat.cast_one]
  have hasked : (r.asked settings c).1 = if c.link = .answered then
      (keys.script c.key ((settings c.key).1 / (settings c.key).2 * 1000)
        (settings c.key).1 1 (r.clock + c.later)).1 else .granted := by
    simp only [asked, RateLimiter.isAllowed, if_neg hwindow.ne', hlimiter,
      RedisTokenBucketBackend.acquire]
  have hfull : r.Full settings c ↔ c.link = .answered ∧
      TokenBucket.filled ((settings c.key).1 / (settings c.key).2) (settings c.key).1
        (RedisTokenBucketBackend.millis (r.clock + c.later))
        ((keys.live c.key (r.clock + c.later)).map RedisBucket.bucket) < 1 := by
    simp only [Full, hlimiter]
  rw [hfull, hasked]
  split_ifs with hanswered
  · rw [htake, not_and, not_lt]
    exact ⟨fun h _ => h, fun h => h hanswered⟩
  · simp [hanswered]

/-- What a call grants. -/
theorem granted_iff (h : r.Good settings c.key) (hwindow : 0 < (settings c.key).2) :
    (r.asked settings c).1 = .granted ↔ ¬r.Full settings c := by
  cases hlimiter : r.limiter with
  | memory windows => exact memory_granted_iff h hlimiter hwindow
  | redis keys => exact redis_granted_iff hlimiter hwindow

theorem Good.step (h : r.Good settings key) (c : AllowedCall) :
    (r.step settings c).Good settings key := by
  have hle : ∀ t ∈ timesOf key r.granted, t ≤ r.time c := h.le_time c
  refine ⟨?_, ?_, ?_⟩
  · intro windows' hafter hwindow hlimit
    change (r.asked settings c).2 = .memory windows' at hafter
    cases hlimiter : r.limiter with
    | redis keys =>
      simp only [asked, RateLimiter.isAllowed, hlimiter] at hafter
      split_ifs at hafter
    | memory windows =>
      have hsince : r.clock - (settings key).2 / 1000 ≤ r.clock + c.later - (settings key).2 / 1000 :=
        sub_le_sub_right (r.le_clock c) _
      have hremembers := h.remembers windows hlimiter hwindow hlimit
      rw [timesOf_step]
      by_cases hkey : c.key = key
      · subst hkey
        have hasked := memory_asked hlimiter hwindow hlimit
        have hleft := hremembers.dropWhile hsince
        simp only at hasked
        split_ifs at hasked with hroom
        · rw [hasked] at hafter ⊢
          cases hafter
          rw [Function.update_self, if_pos ⟨rfl, rfl⟩]
          have htime : r.time c = r.clock + c.later := by
            simp only [time, hlimiter, RateLimiter.reads]
          rw [htime]
          exact hleft.snoc _
        · rw [hasked] at hafter ⊢
          cases hafter
          rw [Function.update_self, if_neg (by simp), List.append_nil]
          exact hleft
      · rw [memory_asked_of_ne (Ne.symm hkey) hlimiter hafter, if_neg (by simp [hkey]),
          List.append_nil]
        exact hremembers.mono hsince
  · rw [timesOf_step]
    split_ifs
    · refine List.pairwise_append.mpr ⟨h.sorted, List.pairwise_singleton _ _, ?_⟩
      intro t ht t' ht'
      rw [List.mem_singleton.mp ht']
      exact hle t ht
    · rw [List.append_nil]
      exact h.sorted
  · rw [timesOf_step]
    intro t ht
    change t ≤ (r.asked settings c).2.reads (r.clock + c.later)
    rw [reads_asked]
    rcases List.mem_append.mp ht with ht | ht
    · exact hle t ht
    · split_ifs at ht
      · rw [List.mem_singleton.mp ht]
        exact le_rfl
      · cases ht

/-! ## The limit in a window -/

/-- What one call adds to the claim about a key. -/
theorem within_step (h : r.Good settings key) :
    (r.step settings c).Within settings key ↔
      r.Within settings key ∧ (c.key = key → r.InTime settings c) := by
  rw [Within, timesOf_step]
  by_cases hkey : c.key = key
  · subst hkey
    rcases lt_trichotomy (settings c.key).2 0 with hneg | hzero | hpos
    · have hlength : ((settings c.key).2 : ℚ) < 0 := by exact_mod_cast hneg
      have hintime : r.InTime settings c := fun hpos => absurd hneg (not_lt.mpr hpos.le)
      exact ⟨fun _ => ⟨Window.atMost_of_neg hlength, fun _ => hintime⟩,
        fun _ => Window.atMost_of_neg hlength⟩
    · have hraised : (r.asked settings c).1 = .raised := by
        rw [asked, RateLimiter.isAllowed, if_pos hzero]
      have hintime : r.InTime settings c := fun hpos => absurd hzero hpos.ne'
      rw [if_neg (by simp [hraised]), List.append_nil]
      exact ⟨fun hwithin => ⟨hwithin, fun _ => hintime⟩, fun hboth => hboth.1⟩
    · have hgranted := granted_iff h hpos
      by_cases hfull : r.Full settings c
      · rw [if_neg fun hboth => hgranted.mp hboth.2 hfull, List.append_nil]
        exact ⟨fun hwithin => ⟨hwithin, fun _ _ _ => hfull⟩, fun hboth => hboth.1⟩
      · have hwindow : r.time c - (settings c.key).2 ≤ r.time c ∧ r.time c ≤ r.time c := by
          have hcast : (0 : ℚ) < (settings c.key).2 := by exact_mod_cast hpos
          exact ⟨by linarith, le_rfl⟩
        have hintime : r.InTime settings c ↔ ¬(settings c.key).1 ≤ Window.countIn
            (r.time c - (settings c.key).2) (r.time c) (timesOf c.key r.granted) :=
          ⟨fun hin hreached => hfull (hin hpos hreached), fun hroom _ hreached =>
            absurd hreached hroom⟩
        rw [if_pos ⟨rfl, hgranted.mpr hfull⟩, Window.atMost_snoc (h.le_time c),
          Window.countIn_append, Window.countIn_singleton, if_pos hwindow]
        simp only [true_imp_iff, hintime, Within]
        refine and_congr_right fun _ => ?_
        omega
  · rw [if_neg fun hboth => hkey hboth.1, List.append_nil]
    exact ⟨fun hwithin => ⟨hwithin, fun h => absurd h hkey⟩, fun hboth => hboth.1⟩

/-- What every run keeps. -/
theorem within_run_iff (calls : List AllowedCall) :
    (calls.foldl (step settings) (new redis)).Within settings key ↔
      Run.Along (step settings) (fun r c => c.key = key → r.InTime settings c) (new redis) calls := by
  have hstart : (new redis).Within settings key := fun a => by simp [new, timesOf]
  rw [Run.foldl_iff_along (Within settings key) (Good settings key) (fun r c h => h.step c)
    (fun r c h => within_step h) good_new]
  exact and_iff_right hstart

/-! ## No limit, or no window -/

/-- The backend is the one that the limiter was made with. -/
def Kept (redis : Bool) (r : AllowedRun) : Prop := ∀ keys, r.limiter = .redis keys → redis = true

theorem kept_new : (new redis).Kept redis := by
  intro keys hlimiter
  cases redis with
  | false => cases hlimiter
  | true => rfl

theorem Kept.step (h : r.Kept redis) (c : AllowedCall) : (r.step settings c).Kept redis := by
  intro keys hafter
  change (r.asked settings c).2 = .redis keys at hafter
  cases hlimiter : r.limiter with
  | redis keys' => exact h keys' hlimiter
  | memory windows =>
    simp only [asked, RateLimiter.isAllowed, hlimiter] at hafter
    split_ifs at hafter

theorem inTime_of_nonpos (h : r.Kept redis) (hlink : redis = true → c.link = .answered)
    (hnone : (settings c.key).1 ≤ 0 ∨ (settings c.key).2 ≤ 0) : r.InTime settings c := by
  intro hwindow hreached
  have hlimit : (settings c.key).1 ≤ 0 := hnone.resolve_right (not_le.mpr hwindow)
  cases hlimiter : r.limiter with
  | memory windows =>
    simp only [Full, hlimiter]
    omega
  | redis keys =>
    simp only [Full, hlimiter]
    refine ⟨hlink (h keys hlimiter), TokenBucket.filled_le_burst.trans_lt ?_⟩
    have hcast : ((settings c.key).1 : ℚ) ≤ 0 := by exact_mod_cast hlimit
    linarith

/-! ## Calls at once -/

/-- After `k` calls at time 0 that were granted. -/
structure Filling (settings : Text → ℤ × ℤ) (key : Text) (k : ℕ) (r : AllowedRun) : Prop where
  good : r.Good settings key
  clock : r.clock = 0
  times : timesOf key r.granted = List.replicate k 0
  tokens : ∀ keys, r.limiter = .redis keys → ∀ cell, keys key = some cell →
    (settings key).1 - k ≤ cell.bucket.tokens ∧ cell.bucket.counted = 0

theorem reads_zero (l : RateLimiter) : l.reads 0 = 0 := by
  cases l with
  | memory _ => rfl
  | redis _ => simp [RateLimiter.reads, RedisTokenBucketBackend.millis]

/-- The tokens in Redis after calls at once. -/
theorem Filling.le_filled {k : ℕ} (h : r.Filling settings key k) {keys : RedisTokenBucketBackend}
    (hlimiter : r.limiter = .redis keys) (now : ℚ) :
    min ((settings key).1 : ℚ) ((settings key).1 - k +
      RedisTokenBucketBackend.millis now * ((settings key).1 / (settings key).2)) ≤
    TokenBucket.filled ((settings key).1 / (settings key).2) (settings key).1
      (RedisTokenBucketBackend.millis now) ((keys.live key now).map RedisBucket.bucket) := by
  cases hlive : keys.live key now with
  | none =>
    simp [TokenBucket.filled]
  | some cell =>
    have hcell : keys key = some cell := by
      rw [RedisTokenBucketBackend.live] at hlive
      exact (Option.filter_eq_some_iff.mp hlive).1
    obtain ⟨htokens, hcounted⟩ := h.tokens keys hlimiter cell hcell
    simp only [Option.map_some, TokenBucket.filled, Option.getD_some, hcounted, sub_zero]
    exact min_le_min_left _ (by linarith)

/-- One more call at once. -/
theorem Filling.step {k : ℕ} (h : r.Filling settings key k) (hwindow : 0 < (settings key).2)
    (hroom : (k : ℤ) < (settings key).1) :
    (r.step settings ⟨key, 0, .answered⟩).Filling settings key (k + 1) := by
  have hclock : r.clock + ((0 : ℚ≥0) : ℚ) = 0 := by rw [h.clock, NNRat.cast_zero, add_zero]
  have htime : r.time ⟨key, 0, .answered⟩ = 0 := by
    rw [time, hclock]
    exact reads_zero _
  have hmillis : RedisTokenBucketBackend.millis 0 = 0 := by simp [RedisTokenBucketBackend.millis]
  have hwindow' : (0 : ℚ) < (settings key).2 := by exact_mod_cast hwindow
  have hroom' : (k : ℚ) + 1 ≤ (settings key).1 := by exact_mod_cast hroom
  -- the tokens that were not taken yet
  have hleft : ∀ keys, r.limiter = .redis keys → (settings key).1 - (k : ℚ) ≤
      TokenBucket.filled ((settings key).1 / (settings key).2) (settings key).1
        (RedisTokenBucketBackend.millis 0) ((keys.live key 0).map RedisBucket.bucket) := by
    intro keys hlimiter
    refine le_trans ?_ (h.le_filled hlimiter 0)
    rw [hmillis, Int.cast_zero, zero_mul, add_zero]
    exact le_min (by linarith [(Nat.cast_nonneg k : (0 : ℚ) ≤ k)]) le_rfl
  have hfull : ¬r.Full settings ⟨key, 0, .answered⟩ := by
    cases hlimiter : r.limiter with
    | memory windows =>
      have hin : (0 : ℚ) - (settings key).2 / 1000 ≤ 0 ∧ (0 : ℚ) ≤ 0 :=
        ⟨by linarith [div_pos hwindow' (by norm_num : (0 : ℚ) < 1000)], le_rfl⟩
      simp only [Full, hlimiter, htime, h.times, Window.countIn_replicate hin]
      omega
    | redis keys =>
      simp only [Full, hlimiter, hclock, not_and, not_lt]
      intro _
      linarith [hleft keys hlimiter]
  have hgranted : (r.asked settings ⟨key, 0, .answered⟩).1 = .granted :=
    (granted_iff h.good hwindow).mpr hfull
  refine ⟨h.good.step _, hclock, ?_, ?_⟩
  · rw [timesOf_step, if_pos ⟨rfl, hgranted⟩, h.times, htime, List.replicate_succ']
  · intro keys' hafter cell hcell
    change (r.asked settings ⟨key, 0, .answered⟩).2 = .redis keys' at hafter
    cases hlimiter : r.limiter with
    | memory windows =>
      simp only [asked, RateLimiter.isAllowed, hlimiter, if_neg hwindow.ne'] at hafter
      cases hafter
    | redis keys =>
      simp only [asked, RateLimiter.isAllowed, hlimiter, if_neg hwindow.ne', hclock] at hafter
      obtain ⟨expires, hscript⟩ := @RedisTokenBucketBackend.script_snd keys key
        ((settings key).1 / (settings key).2 * 1000) (settings key).1 1 0
      have hkeys : keys' = (keys.script key ((settings key).1 / (settings key).2 * 1000)
          (settings key).1 1 0).2 := (RateLimiter.redis.inj hafter).symm
      have hrate : ((settings key).1 : ℚ) / (settings key).2 * 1000 / 1000 =
          (settings key).1 / (settings key).2 := by
        field_simp
      have hone : ((1 : ℕ) : ℚ) ≤ TokenBucket.filled ((settings key).1 / (settings key).2)
          (settings key).1 (RedisTokenBucketBackend.millis 0)
            ((keys.live key 0).map RedisBucket.bucket) := by
        rw [Nat.cast_one]
        linarith [hleft keys hlimiter]
      rw [hkeys, hscript, Function.update_self, hrate, TokenBucket.take_of_le hone] at hcell
      cases hcell
      refine ⟨?_, by rw [hmillis, Int.cast_zero]⟩
      push_cast
      linarith [hleft keys hlimiter]

theorem filling_run (hwindow : 0 < (settings key).2) {k : ℕ} (hk : (k : ℤ) ≤ (settings key).1) :
    ((List.replicate k ⟨key, 0, .answered⟩).foldl (AllowedRun.step settings)
      (new redis)).Filling settings key k := by
  induction k with
  | zero =>
    refine ⟨good_new, rfl, rfl, ?_⟩
    intro keys hlimiter cell hcell
    cases redis with
    | false => cases hlimiter
    | true =>
      cases hlimiter
      cases hcell
  | succ k ih =>
    rw [List.replicate_succ', List.foldl_append, List.foldl_cons, List.foldl_nil]
    exact (ih (by omega)).step hwindow (by omega)

/-- A whole window later, one more. -/
theorem Filling.not_inTime (h : r.Filling settings key (settings key).1.toNat)
    (hlimit : 0 < (settings key).1) (hwindow : 0 < (settings key).2) (w : ℚ≥0)
    (hw : (w : ℚ) = (settings key).2) : ¬r.InTime settings ⟨key, w, .answered⟩ := by
  have hclock : r.clock + (w : ℚ) = (settings key).2 := by rw [h.clock, hw, zero_add]
  have hwindow' : (0 : ℚ) < (settings key).2 := by exact_mod_cast hwindow
  have hmillis : RedisTokenBucketBackend.millis (settings key).2 = (settings key).2 * 1000 := by
    have hint : ((settings key).2 : ℚ) * 1000 = ((settings key).2 * 1000 : ℤ) := by push_cast; rfl
    rw [RedisTokenBucketBackend.millis, hint, Int.floor_intCast]
  have htime : r.time ⟨key, w, .answered⟩ = (settings key).2 := by
    rw [time, hclock]
    cases r.limiter with
    | memory _ => rfl
    | redis _ => simp [RateLimiter.reads, hmillis]
  intro hintime
  have hfull := hintime hwindow (by
    have hin : ((settings key).2 : ℚ) - (settings key).2 ≤ 0 ∧ (0 : ℚ) ≤ (settings key).2 :=
      ⟨by linarith, hwindow'.le⟩
    simp only [htime, h.times, Window.countIn_replicate hin]
    omega)
  cases hlimiter : r.limiter with
  | memory windows =>
    have hnone : Window.countIn ((settings key).2 - (settings key).2 / 1000) (settings key).2
        (List.replicate (settings key).1.toNat (0 : ℚ)) = 0 := by
      rw [Window.countIn, List.countP_replicate, if_neg]
      rw [decide_eq_true_eq]
      intro hin
      linarith [hin.1]
    simp only [Full, hlimiter, htime, h.times, hnone] at hfull
    omega
  | redis keys =>
    simp only [Full, hlimiter, hclock, true_and] at hfull
    have hfilled := h.le_filled hlimiter (settings key).2
    have hlimit' : (1 : ℚ) ≤ (settings key).1 := by exact_mod_cast hlimit
    have htokens : ((settings key).2 * 1000 : ℤ) * (((settings key).1 : ℚ) / (settings key).2) =
        1000 * (settings key).1 := by
      push_cast
      field_simp
    have hcount : ((settings key).1.toNat : ℚ) = (settings key).1 := by
      exact_mod_cast Int.toNat_of_nonneg hlimit.le
    rw [hmillis, htokens, hcount] at hfilled
    have hone : (1 : ℚ) ≤ min ((settings key).1 : ℚ)
        ((settings key).1 - (settings key).1 + 1000 * (settings key).1) :=
      le_min hlimit' (by linarith)
    rw [hmillis] at hfull
    linarith

/-- **A key is allowed** no more often than its limit in any window exactly where, in memory,
whenever its limit is reached in the window it is reached in a thousandth of it, and, in Redis,
whenever it is reached the bucket is answered to be empty.  So it is in all runs exactly where the
limit or the window is none. -/
theorem allowed_iff (settings : Text → ℤ × ℤ) (redis : Bool) (key : Text) :
    (∀ calls : List AllowedCall, (calls.foldl (step settings) (new redis)).Within settings key ↔
      Run.Along (step settings) (fun r c => c.key = key → r.InTime settings c) (new redis) calls) ∧
    ((∀ calls : List AllowedCall, (∀ c ∈ calls, redis = true → c.link = .answered) →
      (calls.foldl (step settings) (new redis)).Within settings key) ↔
        (settings key).1 ≤ 0 ∨ (settings key).2 ≤ 0) := by
  refine ⟨within_run_iff, ?_, ?_⟩
  · intro h
    by_contra hnot
    rw [not_or, not_le, not_le] at hnot
    obtain ⟨hlimit, hwindow⟩ := hnot
    obtain ⟨w, hw⟩ : ∃ w : ℚ≥0, (w : ℚ) = (settings key).2 :=
      ⟨⟨(settings key).2, by exact_mod_cast hwindow.le⟩, rfl⟩
    have hfilling := @filling_run settings key redis hwindow (settings key).1.toNat (by omega)
    have hrun := h (List.replicate (settings key).1.toNat ⟨key, 0, .answered⟩ ++
      [⟨key, w, .answered⟩]) (by simp [List.mem_replicate, or_imp, forall_and])
    rw [within_run_iff, Run.along_append] at hrun
    exact hfilling.not_inTime hlimit hwindow w hw (hrun.2.1 rfl)
  · intro hnone calls hcalls
    rw [within_run_iff]
    have hlinks : Run.Along (step settings) (fun _ c => redis = true → c.link = .answered)
        (new redis) calls := Run.along_of_mem hcalls
    refine Run.Along.of_invariant (Kept redis) kept_new hlinks (fun r c h _ => h.step c) ?_
    intro r c h hlink hkey
    subst hkey
    exact inTime_of_nonpos h hlink hnone

/-- A limit of one call in a minute. -/
def oncePerMinute : Text → ℤ × ℤ := fun _ => (1, 60)

/-- Two calls half a minute apart are both allowed. -/
theorem allowed_twice : ¬([⟨of "k", 0, .answered⟩, ⟨of "k", 30, .answered⟩].foldl
    (step oncePerMinute) (new false)).Within oncePerMinute (of "k") := by
  have htimes : timesOf (of "k") ([⟨of "k", 0, .answered⟩, ⟨of "k", 30, .answered⟩].foldl
      (step oncePerMinute) (new false)).granted = [0, 30] := by decide +kernel
  intro hwithin
  have hminute := hwithin 0
  rw [htimes] at hminute
  revert hminute
  decide +kernel

end AllowedRun

end WolfNas
