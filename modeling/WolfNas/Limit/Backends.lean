import WolfNas.Cache.Adapters
import WolfNas.Lib.Text
import WolfNas.Lib.TokenBucket
import Mathlib.Algebra.Order.Floor.Ring
import Mathlib.Data.Rat.Floor

/-!
# The rate limiters

A request of a key is granted by a token bucket, in memory or in Redis, or by a window that
slides over the requests granted before.  A request that waits asks again and again; every time
it asks is one step, as it is taken under the lock of the backend or in one script of Redis.

Callers ask the bucket of a key, and whoever is refused sleeps and asks again; every turn of the
loop of `acquire` is one ask, so the calls of all callers are one sequence of asks.

## Main definitions

* `parseRate` — `_parse_rate`.
* `MemoryTokenBucketBackend`, `RedisTokenBucketBackend`, `MemorySlidingWindowBackend` — the
  backends, each with its `acquire`.
* `LimitBackend`, `LimitBackend.acquire` — the backend that an engine works with.
* `RateLimitEngine.acquire` — the rate as a text.
* `RateLimiter.isAllowed` — the limiter of the old interface.
* `BucketAsk` — one turn of the loop, of any caller.
* `MemoryTokenBucketBackend.grants` — the asks that are granted.

## Main results

* `MemoryTokenBucketBackend.grants_of_key` — a key is served by its own bucket.
* `MemoryTokenBucketBackend.grants_le` — what is granted in an interval.
-/

namespace WolfNas

open Text

/-! ## Rates -/

/-- The number at the head of a text, `\d+\.?\d*`, and what comes after it. -/
def parseNumber (s : Text) : Option (ℚ × Text) :=
  let whole := s.takeWhile Char.isDigit
  if whole = [] then none
  else match s.dropWhile Char.isDigit with
    | '.' :: rest =>
      let part := rest.takeWhile Char.isDigit
      some (toNat whole + toNat part / 10 ^ part.length, rest.dropWhile Char.isDigit)
    | rest => some (toNat whole, rest)

/-- The seconds of a unit. -/
def unitSeconds : Char → Option ℕ
  | 's' => some 1
  | 'm' => some 60
  | 'h' => some 3600
  | 'd' => some 86400
  | _ => none

/-- `_parse_rate`: a count, and the whole seconds of its window. -/
def parseRate (rate : Text) : Option (ℚ × ℕ) :=
  match parseNumber rate.strip with
  | some (count, '/' :: rest) =>
    let interval := (parseNumber rest).getD (1, rest)
    match interval.2 with
    | [] => some (count, ⌊interval.1⌋₊)
    | [unit] => (unitSeconds unit).map fun seconds => (count, ⌊interval.1 * seconds⌋₊)
    | _ => none
  | _ => none

example : parseRate (of "10/m") = some (10, 60) := by decide +kernel

/-! ## Backends -/

/-- `MemoryTokenBucketBackend`: the buckets of the keys. -/
abbrev MemoryTokenBucketBackend := Text → Option TokenBucket

/-- What comes of asking once: a request is granted or not, or an exception is raised. -/
inductive Admission
  | granted | refused | raised
  deriving DecidableEq, Repr

/-- The answer of a bucket. -/
def Admission.ofBool (granted : Bool) : Admission := if granted then .granted else .refused

theorem Admission.ofBool_eq_granted {b : Bool} : ofBool b = .granted ↔ b = true := by
  cases b <;> simp [ofBool]

/-- `MemoryTokenBucketBackend.acquire`, asking once.  Who is refused computes a time to wait, and
divides by the rate. -/
def MemoryTokenBucketBackend.acquire (m : MemoryTokenBucketBackend) (key : Text) (rate : ℚ)
    (burst : ℤ) (tokens : ℕ) (now : ℚ) : Admission × MemoryTokenBucketBackend :=
  let (granted, bucket) := TokenBucket.take rate burst tokens now (m key)
  (if granted = false ∧ rate = 0 then .raised else .ofBool granted,
    Function.update m key (some bucket))

/-- `MemorySlidingWindowBackend`: the times at which requests were granted. -/
abbrev MemorySlidingWindowBackend := Text → List ℚ

/-- `MemorySlidingWindowBackend.acquire`, asking once. -/
def MemorySlidingWindowBackend.acquire (m : MemorySlidingWindowBackend) (key : Text) (rate : ℚ)
    (burst : ℤ) (tokens : ℕ) (now : ℚ) : Admission × MemorySlidingWindowBackend :=
  let window := if 0 < rate then burst / rate else 60
  let timestamps := (m key).dropWhile fun t => t < now - window
  if (timestamps.length : ℤ) + tokens ≤ burst then
    (.granted, Function.update m key (timestamps ++ List.replicate tokens now))
  else (.refused, Function.update m key timestamps)

/-- A key of a bucket in Redis; times are in milliseconds. -/
structure RedisBucket where
  bucket : TokenBucket
  expires : WithTop ℚ := ⊤

/-- `RedisTokenBucketBackend`: the keys. -/
abbrev RedisTokenBucketBackend := Text → Option RedisBucket

namespace RedisTokenBucketBackend

/-- The milliseconds of a clock. -/
def millis (now : ℚ) : ℤ := ⌊now * 1000⌋

theorem millis_mono {now now' : ℚ} (h : now ≤ now') : millis now ≤ millis now' :=
  Int.floor_le_floor (by linarith)

/-- The key, where it has not expired. -/
def live (m : RedisTokenBucketBackend) (key : Text) (now : ℚ) : Option RedisBucket :=
  (m key).filter fun cell => ((millis now : ℚ) : WithTop ℚ) < cell.expires

/-- When a key expires that a request asked for: one that is granted sets it, but for a rate that
the script cannot divide by, which ends it there. -/
def expiry (granted : Bool) (kept : WithTop ℚ) (rate : ℚ) (burst : ℤ) (now : ℚ) : WithTop ℚ :=
  if granted = true ∧ rate ≠ 0 then
    ((millis now + (⌈burst / rate * 1000⌉ + 1) * 1000 : ℚ) : WithTop ℚ)
  else kept

/-- `_TOKEN_BUCKET_SCRIPT`. -/
def script (m : RedisTokenBucketBackend) (key : Text) (rate : ℚ) (burst : ℤ) (tokens : ℕ)
    (now : ℚ) : Admission × RedisTokenBucketBackend :=
  let cell := live m key now
  let (granted, bucket) :=
    TokenBucket.take (rate / 1000) burst tokens (millis now) (cell.map RedisBucket.bucket)
  let kept := (cell.map RedisBucket.expires).getD ⊤
  (.ofBool granted, Function.update m key (some ⟨bucket, expiry granted kept rate burst now⟩))

/-- The keys after the script ran. -/
theorem script_snd {m : RedisTokenBucketBackend} {key : Text} {rate : ℚ} {burst : ℤ} {tokens : ℕ}
    {now : ℚ} : ∃ expires, (m.script key rate burst tokens now).2 =
      Function.update m key (some ⟨(TokenBucket.take (rate / 1000) burst tokens (millis now)
        ((m.live key now).map RedisBucket.bucket)).2, expires⟩) := ⟨_, rfl⟩

/-- `RedisTokenBucketBackend.acquire`, asking once: without an answer the request is granted. -/
def acquire (m : RedisTokenBucketBackend) (key : Text) (rate : ℚ) (burst : ℤ) (tokens : ℕ)
    (now : ℚ) (link : RedisLink) : Admission × RedisTokenBucketBackend :=
  let (answer, m') := script m key rate burst tokens now
  (if link = .answered then answer else .granted, if link.reaches then m' else m)

end RedisTokenBucketBackend

/-- The backend that an engine was made with. -/
inductive LimitBackend
  | memory (buckets : MemoryTokenBucketBackend)
  | redis (keys : RedisTokenBucketBackend)

namespace LimitBackend

/-- The time that the backend reads, in seconds. -/
def reads : LimitBackend → ℚ → ℚ
  | .memory _, now => now
  | .redis _, now => RedisTokenBucketBackend.millis now / 1000

/-- A new backend. -/
def new (redis : Bool) : LimitBackend :=
  if redis then .redis fun _ => none else .memory fun _ => none

/-- `acquire` of the backend, asking once. -/
def acquire (backend : LimitBackend) (key : Text) (rate : ℚ) (burst : ℤ) (tokens : ℕ) (now : ℚ)
    (link : RedisLink) : Admission × LimitBackend :=
  match backend with
  | .memory buckets =>
    let (answer, buckets) := buckets.acquire key rate burst tokens now
    (answer, .memory buckets)
  | .redis keys =>
    let (answer, keys) := keys.acquire key rate burst tokens now link
    (answer, .redis keys)

end LimitBackend

/-- `RateLimitEngine`: its backend, and the windows of the other algorithm. -/
structure RateLimitEngine where
  backend : LimitBackend
  windows : MemorySlidingWindowBackend := fun _ => []

/-- `RateLimitEngine.acquire`, asking once.  A rate that cannot be read, and a window of no
seconds, raise. -/
def RateLimitEngine.acquire (e : RateLimitEngine) (key rate : Text) (burst : Option ℤ)
    (tokens : ℕ) (sliding : Bool) (now : ℚ) (link : RedisLink) : Admission × RateLimitEngine :=
  match parseRate rate with
  | none => (.raised, e)
  | some (count, window) =>
    if window = 0 then (.raised, e)
    else
      let burst := burst.getD ⌊count⌋
      if sliding then
        let (answer, windows) := e.windows.acquire key (count / window) burst tokens now
        (answer, { e with windows })
      else
        let (answer, backend) := e.backend.acquire key (count / window) burst tokens now link
        (answer, { e with backend })

/-- `RateLimiter`: in Redis, or with windows in memory. -/
inductive RateLimiter
  | redis (keys : RedisTokenBucketBackend)
  | memory (windows : MemorySlidingWindowBackend)

/-- `is_allowed`. -/
def RateLimiter.isAllowed (r : RateLimiter) (key : Text) (limit window : ℤ) (now : ℚ)
    (link : RedisLink) : Admission × RateLimiter :=
  if window = 0 then (.raised, r)
  else
    let ratePerSec : ℚ := limit / window
    match r with
    | .redis keys =>
      let (answer, keys) := keys.acquire key (ratePerSec * 1000) limit 1 now link
      (answer, .redis keys)
    | .memory windows =>
      let (answer, windows) := windows.acquire key (ratePerSec * 1000) limit 1 now
      (answer, .memory windows)

/-! ## What the bucket in memory grants -/

/-- One turn of the loop of `acquire`. -/
structure BucketAsk where
  key : Text
  rate : ℚ
  burst : ℤ
  tokens : ℕ
  time : ℚ
  deriving DecidableEq

/-- What an ask is to its bucket. -/
def BucketAsk.request (a : BucketAsk) : ℚ × ℚ := (a.tokens, a.time)

namespace MemoryTokenBucketBackend

variable {m : MemoryTokenBucketBackend} {key : Text} {rate : ℚ} {burst : ℤ} {asks : List BucketAsk}

/-- The answer to one ask, and the buckets after it. -/
def ask (m : MemoryTokenBucketBackend) (a : BucketAsk) : Admission × MemoryTokenBucketBackend :=
  m.acquire a.key a.rate a.burst a.tokens a.time

/-- The asks that are granted. -/
def grants : MemoryTokenBucketBackend → List BucketAsk → List BucketAsk
  | _, [] => []
  | m, a :: asks => if (m.ask a).1 = .granted then a :: grants (m.ask a).2 asks
      else grants (m.ask a).2 asks

/-- All asks of the key have its rate and its burst. -/
def Uniform (key : Text) (rate : ℚ) (burst : ℤ) (asks : List BucketAsk) : Prop :=
  ∀ a ∈ asks, a.key = key → a.rate = rate ∧ a.burst = burst

/-! ## A key and its bucket -/

theorem ask_granted_iff (a : BucketAsk) :
    (m.ask a).1 = .granted ↔
      (TokenBucket.take a.rate a.burst a.tokens a.time (m a.key)).1 = true := by
  simp only [ask, acquire]
  split_ifs with h
  · simp [h.1]
  · exact Admission.ofBool_eq_granted

theorem ask_snd (a : BucketAsk) : (m.ask a).2 = Function.update m a.key
    (some (TokenBucket.take a.rate a.burst a.tokens a.time (m a.key)).2) := rfl

theorem grants_subset : grants m asks ⊆ asks := by
  induction asks generalizing m with
  | nil => exact List.Subset.refl []
  | cons a asks ih =>
    rw [grants]
    split_ifs
    · exact List.cons_subset_cons a ih
    · exact List.subset_cons_of_subset a ih

/-- The grants of a key are those of its bucket, whatever else is asked for. -/
theorem grants_of_key (h : Uniform key rate burst asks) :
    ((grants m asks).filter fun a => a.key = key).map BucketAsk.request =
      TokenBucket.granted rate burst (m key)
        ((asks.filter fun a => a.key = key).map BucketAsk.request) := by
  induction asks generalizing m with
  | nil => rfl
  | cons a asks ih =>
    have htail : Uniform key rate burst asks := fun a' ha' => h a' (List.mem_cons_of_mem a ha')
    have hrest := ih (m := (m.ask a).2) htail
    by_cases hkey : a.key = key
    · obtain ⟨rfl, rfl⟩ := h a List.mem_cons_self hkey
      subst hkey
      have hbucket : (m.ask a).2 a.key =
          some (TokenBucket.take a.rate a.burst a.tokens a.time (m a.key)).2 := by
        rw [ask_snd, Function.update_self]
      rw [hbucket] at hrest
      rw [grants, List.filter_cons_of_pos (by simp), List.map_cons, TokenBucket.granted]
      by_cases hgranted : (m.ask a).1 = .granted
      · have htake := (ask_granted_iff a).mp hgranted
        rw [if_pos hgranted, List.filter_cons_of_pos (by simp), List.map_cons, hrest]
        exact (if_pos htake).symm
      · have htake := mt (ask_granted_iff a).mpr hgranted
        rw [if_neg hgranted, hrest]
        exact (if_neg htake).symm
    · -- another key leaves the bucket as it is
      have hbucket : (m.ask a).2 key = m key := by
        rw [ask_snd, Function.update_of_ne (Ne.symm hkey)]
      rw [hbucket] at hrest
      rw [grants, List.filter_cons_of_neg (by simpa using hkey)]
      split_ifs
      · rw [List.filter_cons_of_neg (by simpa using hkey), hrest]
      · exact hrest

/-! ## An interval -/

/-- The grants of a key in an interval. -/
def grantsIn (key : Text) (start stop : ℚ) (asks : List BucketAsk) : List BucketAsk :=
  (grants (fun _ => none) asks).filter fun a => a.key = key ∧ start ≤ a.time ∧ a.time ≤ stop

/-- The tokens that a key is granted in an interval. -/
theorem tokens_grantsIn (h : Uniform key rate burst asks) (start stop : ℚ) :
    ((grantsIn key start stop asks).map fun a => (a.tokens : ℚ)).sum =
      TokenBucket.taken start stop (TokenBucket.granted rate burst none
        ((asks.filter fun a => a.key = key).map BucketAsk.request)) := by
  rw [← grants_of_key (m := fun _ => none) h, TokenBucket.taken, grantsIn, List.filter_map,
    List.map_map, List.filter_filter]
  refine congrArg List.sum ?_
  refine congrArg (List.map _) (List.filter_congr fun a _ => ?_)
  rw [Bool.eq_iff_iff, decide_eq_true_iff, Bool.and_eq_true, decide_eq_true_iff,
    Function.comp_apply, decide_eq_true_iff]
  exact and_comm

theorem tokens_grantsIn_le (h : Uniform key rate burst asks)
    (hsorted : asks.Pairwise fun a a' => a.time ≤ a'.time) (hrate : 0 ≤ rate) (hburst : 0 ≤ burst)
    {start stop : ℚ} (hstop : start ≤ stop) :
    ((grantsIn key start stop asks).map fun a => (a.tokens : ℚ)).sum ≤
      burst + rate * (stop - start) := by
  rw [tokens_grantsIn h, mul_comm]
  refine TokenBucket.taken_granted_le hrate (by exact_mod_cast hburst) ?_ ?_ hstop
  · intro r hr
    obtain ⟨a, -, rfl⟩ := List.mem_map.mp hr
    exact Nat.cast_nonneg a.tokens
  · rw [List.pairwise_map]
    exact hsorted.filter _

/-- **The grants of a key in an interval** are at most its burst and the tokens that come in
meanwhile, for requests of one token or more. -/
theorem grants_le (asks : List BucketAsk) (key : Text) (rate : ℚ) (burst : ℤ)
    (h : Uniform key rate burst asks) (hsorted : asks.Pairwise fun a a' => a.time ≤ a'.time)
    (htokens : ∀ a ∈ asks, 1 ≤ a.tokens) (hrate : 0 ≤ rate) (hburst : 0 ≤ burst)
    {start stop : ℚ} (hstop : start ≤ stop) :
    ((grantsIn key start stop asks).length : ℚ) ≤ burst + rate * (stop - start) := by
  have hcount : ((grantsIn key start stop asks).length : ℚ) ≤
      ((grantsIn key start stop asks).map fun a => (a.tokens : ℚ)).sum := by
    have hone : ∀ q ∈ (grantsIn key start stop asks).map fun a => (a.tokens : ℚ), 1 ≤ q := by
      intro q hq
      obtain ⟨a, ha, rfl⟩ := List.mem_map.mp hq
      exact_mod_cast htokens a (grants_subset (List.mem_of_mem_filter ha))
    simpa using List.card_nsmul_le_sum _ 1 hone
  exact hcount.trans (tokens_grantsIn_le h hsorted hrate hburst hstop)

/-- Three callers of a bucket of two tokens, one of which comes in every ten seconds. -/
def threeAsks : List BucketAsk :=
  [⟨Text.of "a", 1 / 10, 2, 1, 0⟩, ⟨Text.of "a", 1 / 10, 2, 1, 5⟩, ⟨Text.of "a", 1 / 10, 2, 1, 10⟩]

/-- All three are granted, and no more would be. -/
theorem grants_le_threeAsks :
    (grantsIn (Text.of "a") 0 10 threeAsks).length = 3 ∧
      ((grantsIn (Text.of "a") 0 10 threeAsks).length : ℚ) ≤ (2 : ℤ) + 1 / 10 * (10 - 0) :=
  ⟨by decide +kernel,
    grants_le threeAsks (Text.of "a") (1 / 10) 2 (by simp [Uniform, threeAsks])
      (by norm_num [threeAsks]) (by simp [threeAsks]) (by norm_num) (by norm_num) (by norm_num)⟩

end MemoryTokenBucketBackend

end WolfNas
