import WolfNas.Lib.Run
import WolfNas.Limit.Backends
import Mathlib.Tactic.FieldSimp

/-!
# The two token buckets on the same requests

The bucket in memory lets a request wait for its tokens until its timeout ends; the one in Redis
answers at once, whatever the timeout, and reads the clock in whole milliseconds.  A key of Redis
that expires does no harm: its bucket would be full by then.

## Main definitions

* `MemoryTokenBucketBackend.acquireFor`, `MemoryTokenBucketBackend.serve` — the loop of `acquire`.
* `TokenBuckets` — both backends, serving one request after another.
* `TokenBuckets.Agreed` — a request that both answer alike.

## Main results

* `TokenBuckets.mirrored_step` — Redis keeps what the memory would at whole milliseconds.
* `TokenBuckets.same_iff` — the answers are the same exactly where every request is such a one.
* `TokenBuckets.same_at_once` — so they are for requests at whole milliseconds that do not wait.
-/

namespace WolfNas

/-- A request: `acquire(key, rate, burst, tokens, timeout)`, and when it comes. -/
structure BucketRequest where
  key : Text
  tokens : ℕ
  timeout : Option ℚ := none
  time : ℚ
  deriving DecidableEq

/-! ## The loop in memory -/

namespace MemoryTokenBucketBackend

variable {m : MemoryTokenBucketBackend} {key : Text} {rate : ℚ} {burst : ℤ} {tokens : ℕ}
  {timeout deadline : Option ℚ} {now : ℚ} {r : BucketRequest}

/-- The tokens of a key at a time. -/
def level (m : MemoryTokenBucketBackend) (key : Text) (rate : ℚ) (burst : ℤ) (now : ℚ) : ℚ :=
  TokenBucket.filled rate burst now (m key)

/-- `acquire`, which asks so many times at most; none where it would ask again.  Who is refused
sleeps until the tokens are there, unless the deadline comes first. -/
def acquireFor (key : Text) (rate : ℚ) (burst : ℤ) (tokens : ℕ) (timeout deadline : Option ℚ) :
    ℕ → MemoryTokenBucketBackend → ℚ → Option (Admission × MemoryTokenBucketBackend)
  | 0, _, _ => none
  | n + 1, m, now =>
    let asked := m.acquire key rate burst tokens now
    if asked.1 = .refused then
      let waitTime := (tokens - m.level key rate burst now) / rate
      -- the deadline is a time of the clock, and so never the 0 that counts as none
      if (deadline.any fun d => d < now + waitTime) = true ∨ timeout = some 0 then some asked
      else acquireFor key rate burst tokens timeout deadline n asked.2 (now + waitTime)
    else some asked

/-- How many times are enough. -/
def rounds (rate : ℚ) (burst : ℤ) (tokens : ℕ) : Option ℚ → ℕ
  | none => 2
  | some timeout => ⌊timeout * rate / (tokens - burst)⌋₊ + 2

/-- `acquire`; none where it never returns. -/
def serve (m : MemoryTokenBucketBackend) (rate : ℚ) (burst : ℤ) (r : BucketRequest) :
    Option (Admission × MemoryTokenBucketBackend) :=
  acquireFor r.key rate burst r.tokens r.timeout (r.timeout.map (r.time + ·))
    (rounds rate burst r.tokens r.timeout) m r.time

/-- The timeout ends before the tokens are there. -/
def GivesUp (rate : ℚ) (tokens : ℕ) (timeout : Option ℚ) (level : ℚ) : Prop :=
  ∃ t ∈ timeout, t = 0 ∨ level + t * rate < tokens

instance {level : ℚ} : Decidable (GivesUp rate tokens timeout level) :=
  inferInstanceAs (Decidable (∃ t ∈ timeout, t = 0 ∨ level + t * rate < tokens))

/-! ### Asking once -/

theorem acquire_of_le (h : (tokens : ℚ) ≤ m.level key rate burst now) :
    (m.acquire key rate burst tokens now).1 = .granted := by
  simp [acquire, TokenBucket.take_of_le (h : _ ≤ TokenBucket.filled _ _ _ _), Admission.ofBool]

theorem acquire_of_lt (h : m.level key rate burst now < tokens) :
    m.acquire key rate burst tokens now =
      (if rate = 0 then .raised else .refused,
        Function.update m key (some ⟨m.level key rate burst now, now⟩)) := by
  have hnot : ¬(tokens : ℚ) ≤ TokenBucket.filled rate burst now (m key) := not_le.mpr h
  simp [acquire, TokenBucket.take, hnot, Admission.ofBool, level]

theorem acquireFor_of_ne {n : ℕ} (h : (m.acquire key rate burst tokens now).1 ≠ .refused) :
    acquireFor key rate burst tokens timeout deadline (n + 1) m now =
      some (m.acquire key rate burst tokens now) := by
  simp only [acquireFor]
  exact if_neg h

/-- What is in the bucket when the tokens that were missing have come. -/
theorem level_after_wait (hrate : 0 < rate) :
    level (Function.update m key (some ⟨m.level key rate burst now, now⟩)) key rate burst
      (now + (tokens - m.level key rate burst now) / rate) = min (burst : ℚ) tokens := by
  have hcome : m.level key rate burst now +
      (now + (tokens - m.level key rate burst now) / rate - now) * rate = tokens := by
    field_simp
    ring
  simp only [level, Function.update_self, TokenBucket.filled, Option.getD_some] at hcome ⊢
  rw [hcome]

/-- Who waits asks again at that time. -/
theorem acquireFor_of_waits {n : ℕ} (hrate : 0 < rate) (h : m.level key rate burst now < tokens)
    (hwait : ∀ d ∈ deadline, m.level key rate burst now + (d - now) * rate ≥ tokens)
    (hzero : timeout ≠ some 0) :
    acquireFor key rate burst tokens timeout deadline (n + 1) m now =
      acquireFor key rate burst tokens timeout deadline n
        (Function.update m key (some ⟨m.level key rate burst now, now⟩))
        (now + (tokens - m.level key rate burst now) / rate) := by
  have hasked := acquire_of_lt h
  rw [if_neg hrate.ne'] at hasked
  have hnone : ¬((deadline.any fun d =>
      d < now + (tokens - m.level key rate burst now) / rate) = true ∨ timeout = some 0) := by
    intro hor
    rcases hor with hany | hz
    · obtain ⟨d, hd, hlt⟩ := (Option.any_eq_true _ _).mp hany
      have hwaits := hwait d hd
      have hlt' : (d - now) < (tokens - m.level key rate burst now) / rate := by
        have := of_decide_eq_true hlt
        linarith
      have hmul := (lt_div_iff₀ hrate).mp hlt'
      linarith
    · exact hzero hz
  simp only [acquireFor, hasked, if_true, if_neg hnone]

/-- Who does not wait is refused. -/
theorem acquireFor_of_lt {n : ℕ} (hrate : 0 < rate) (h : m.level key rate burst now < tokens)
    (hends : (∃ d ∈ deadline, m.level key rate burst now + (d - now) * rate < tokens) ∨
      timeout = some 0) :
    ∃ m', acquireFor key rate burst tokens timeout deadline (n + 1) m now =
      some (.refused, m') := by
  have hasked := acquire_of_lt h
  rw [if_neg hrate.ne'] at hasked
  have hnow : (deadline.any fun d =>
      d < now + (tokens - m.level key rate burst now) / rate) = true ∨ timeout = some 0 := by
    rcases hends with ⟨d, hd, hlt⟩ | hz
    · left
      rw [Option.any_eq_true]
      refine ⟨d, hd, decide_eq_true ?_⟩
      have hdiv : (d - now) < (tokens - m.level key rate burst now) / rate := by
        rw [lt_div_iff₀ hrate]
        linarith
      linarith
    · exact .inr hz
  refine ⟨Function.update m key (some ⟨m.level key rate burst now, now⟩), ?_⟩
  simp only [acquireFor, hasked, if_true, if_pos hnow]

/-! ### More tokens than fit in -/

/-- A request without a timeout waits for ever. -/
theorem acquireFor_of_burst_lt (hrate : 0 < rate) (hburst : (burst : ℚ) < tokens)
    (hfull : m.level key rate burst now = burst) (n : ℕ) :
    acquireFor key rate burst tokens none none n m now = none := by
  induction n generalizing m now with
  | zero => rfl
  | succ n ih =>
    rw [acquireFor_of_waits hrate (hfull ▸ hburst) (by simp) (by simp)]
    refine ih ?_
    rw [level_after_wait hrate, min_eq_left hburst.le]

/-- A request with a deadline is refused in the end. -/
theorem acquireFor_deadline {d : ℚ} (hrate : 0 < rate) (hburst : (burst : ℚ) < tokens)
    (hzero : timeout ≠ some 0) {n : ℕ} (hfull : m.level key rate burst now = burst)
    (hend : (d - now) * rate < (n + 1) * (tokens - burst)) :
    ∃ m', acquireFor key rate burst tokens timeout (some d) (n + 1) m now =
      some (.refused, m') := by
  induction n generalizing m now with
  | zero =>
    refine acquireFor_of_lt hrate (hfull ▸ hburst) (.inl ⟨d, rfl, ?_⟩)
    rw [hfull]
    simp only [Nat.cast_zero, zero_add, one_mul] at hend
    linarith
  | succ n ih =>
    by_cases hnow : (burst : ℚ) + (d - now) * rate < tokens
    · exact acquireFor_of_lt hrate (hfull ▸ hburst) (.inl ⟨d, rfl, hfull ▸ hnow⟩)
    · have hwait : ∀ d' ∈ some d, m.level key rate burst now + (d' - now) * rate ≥ tokens := by
        intro d' hd'
        obtain rfl := Option.mem_some.mp hd'
        rw [hfull]
        exact not_lt.mp hnow
      rw [acquireFor_of_waits hrate (hfull ▸ hburst) hwait hzero]
      refine ih ?_ ?_
      · rw [level_after_wait hrate, min_eq_left hburst.le]
      · rw [hfull]
        have hpart : ((tokens : ℚ) - burst) / rate * rate = tokens - burst :=
          div_mul_cancel₀ _ hrate.ne'
        push_cast at hend
        calc (d - (now + (tokens - burst) / rate)) * rate
            = (d - now) * rate - (tokens - burst) / rate * rate := by ring
          _ = (d - now) * rate - (tokens - burst) := by rw [hpart]
          _ < (n + 1) * (tokens - burst) := by linarith

/-! ### What comes of a request -/

/-- What comes of a request: none where it waits for ever. -/
def outcome (m : MemoryTokenBucketBackend) (rate : ℚ) (burst : ℤ) (r : BucketRequest) :
    Option Admission :=
  if (r.tokens : ℚ) ≤ m.level r.key rate burst r.time then some .granted
  else if rate = 0 then some .raised
  else if GivesUp rate r.tokens r.timeout (m.level r.key rate burst r.time) then some .refused
  else if (r.tokens : ℚ) ≤ burst then some .granted
  else r.timeout.map fun _ => .refused

/-- The deadline is as far off as the timeout. -/
theorem deadline_iff {level : ℚ} :
    (∃ d ∈ timeout.map (now + ·), level + (d - now) * rate < tokens) ↔
      ∃ t ∈ timeout, level + t * rate < tokens := by
  cases timeout <;> simp

/-- The first time that is asked, where the tokens are not there and the request waits. -/
theorem acquireFor_first {n : ℕ} (hrate : 0 < rate)
    (h : m.level key rate burst now < tokens)
    (hwaits : ¬GivesUp rate tokens timeout (m.level key rate burst now)) :
    acquireFor key rate burst tokens timeout (timeout.map (now + ·)) (n + 1) m now =
      acquireFor key rate burst tokens timeout (timeout.map (now + ·)) n
        (Function.update m key (some ⟨m.level key rate burst now, now⟩))
        (now + (tokens - m.level key rate burst now) / rate) := by
  refine acquireFor_of_waits hrate h ?_ ?_
  · intro d hd
    by_contra hlt
    obtain ⟨t, ht, hlate⟩ := deadline_iff.mp ⟨d, hd, not_le.mp hlt⟩
    exact hwaits ⟨t, ht, .inr hlate⟩
  · rintro rfl
    exact hwaits ⟨0, rfl, .inl rfl⟩

/-- **What comes of a request** is settled by what is in the bucket when it comes. -/
theorem serve_outcome (hrate : 0 ≤ rate) :
    (m.serve rate burst r).map Prod.fst = m.outcome rate burst r := by
  obtain ⟨n, hn⟩ : ∃ n, rounds rate burst r.tokens r.timeout = n + 2 := by
    cases ht : r.timeout with
    | none => exact ⟨0, rfl⟩
    | some t => exact ⟨_, rfl⟩
  simp only [serve, outcome, hn]
  by_cases hlevel : (r.tokens : ℚ) ≤ m.level r.key rate burst r.time
  · have hgranted := acquire_of_le hlevel
    rw [acquireFor_of_ne (by rw [hgranted]; decide), if_pos hlevel, Option.map_some, hgranted]
  have hlt := not_le.mp hlevel
  rw [if_neg hlevel]
  by_cases hzero : rate = 0
  · have hraised := (congrArg Prod.fst (acquire_of_lt hlt)).trans (if_pos hzero)
    rw [acquireFor_of_ne (by rw [hraised]; decide), if_pos hzero, Option.map_some, hraised]
  have hpos : 0 < rate := lt_of_le_of_ne hrate (Ne.symm hzero)
  rw [if_neg hzero]
  by_cases hgives : GivesUp rate r.tokens r.timeout (m.level r.key rate burst r.time)
  · have hends : (∃ d ∈ r.timeout.map (r.time + ·),
        m.level r.key rate burst r.time + (d - r.time) * rate < r.tokens) ∨
        r.timeout = some 0 := by
      obtain ⟨t, ht, h0 | hlate⟩ := hgives
      · exact .inr (h0 ▸ ht)
      · exact .inl (deadline_iff.mpr ⟨t, ht, hlate⟩)
    obtain ⟨m', hm'⟩ := @acquireFor_of_lt m r.key rate burst r.tokens r.timeout
      (r.timeout.map (r.time + ·)) r.time (n + 1) hpos hlt hends
    rw [if_pos hgives, hm']
    rfl
  rw [if_neg hgives, acquireFor_first hpos hlt hgives]
  by_cases hfits : (r.tokens : ℚ) ≤ burst
  · -- the second time the tokens are there
    have hthere := (@level_after_wait m r.key rate burst r.tokens r.time hpos).trans
      (min_eq_right hfits)
    have hgranted := acquire_of_le hthere.ge
    rw [acquireFor_of_ne (by rw [hgranted]; decide), if_pos hfits, Option.map_some, hgranted]
  have hburst := not_le.mp hfits
  have hfull := (@level_after_wait m r.key rate burst r.tokens r.time hpos).trans
    (min_eq_left hburst.le)
  rw [if_neg hfits]
  cases ht : r.timeout with
  | none =>
    rw [Option.map_none, acquireFor_of_burst_lt hpos hburst hfull]
    rfl
  | some t =>
    have hn' : n = ⌊t * rate / (r.tokens - burst)⌋₊ := by
      have h2 : ⌊t * rate / (r.tokens - burst)⌋₊ + 2 = n + 2 := by simpa [rounds, ht] using hn
      omega
    have hwhole : t * rate / (r.tokens - burst) < n + 1 := by
      rw [hn']
      exact Nat.lt_floor_add_one _
    have hbefore : t * rate < (n + 1) * (r.tokens - burst) :=
      (div_lt_iff₀ (sub_pos.mpr hburst)).mp hwhole
    have hdone : (r.time + t - (r.time +
        (r.tokens - m.level r.key rate burst r.time) / rate)) * rate <
        (n + 1) * (r.tokens - burst) := by
      have hpart : ((r.tokens : ℚ) - m.level r.key rate burst r.time) / rate * rate =
          r.tokens - m.level r.key rate burst r.time := div_mul_cancel₀ _ hpos.ne'
      calc (r.time + t - (r.time +
            (r.tokens - m.level r.key rate burst r.time) / rate)) * rate
          = t * rate - (r.tokens - m.level r.key rate burst r.time) / rate * rate := by ring
        _ = t * rate - (r.tokens - m.level r.key rate burst r.time) := by rw [hpart]
        _ < (n + 1) * (r.tokens - burst) := by linarith
    have hne : some t ≠ some 0 := by
      intro h0
      exact hgives ⟨t, ht, .inl (Option.some.inj h0)⟩
    obtain ⟨m', hm'⟩ := acquireFor_deadline hpos hburst hne hfull hdone
    rw [Option.map_some, hm']
    rfl

end MemoryTokenBucketBackend

/-! ## The keys of Redis -/

namespace RedisBucket

/-- A bucket is full when its key expires. -/
def Refills (rate : ℚ) (burst : ℤ) (c : RedisBucket) : Prop :=
  ∀ e : ℚ, c.expires = e →
    0 < rate ∧ (burst : ℚ) ≤ c.bucket.tokens + (e - c.bucket.counted) * (rate / 1000)

end RedisBucket

namespace RedisTokenBucketBackend

variable {k : RedisTokenBucketBackend} {key : Text} {rate : ℚ} {burst : ℤ} {tokens : ℕ} {now : ℚ}

/-- What the script finds in a bucket: it is as full as if its key had not expired. -/
theorem filled_live (hrate : 0 ≤ rate) (hk : ∀ c ∈ k key, c.Refills rate burst) :
    TokenBucket.filled (rate / 1000) burst (millis now) ((k.live key now).map RedisBucket.bucket) =
      TokenBucket.filled (rate / 1000) burst (millis now) ((k key).map RedisBucket.bucket) := by
  cases hc : k key with
  | none => simp [live, hc]
  | some c =>
    by_cases hlive : ((millis now : ℚ) : WithTop ℚ) < c.expires
    · have hsome : k.live key now = some c := by
        rw [live, hc, Option.filter_some, if_pos (decide_eq_true hlive)]
      rw [hsome]
    · obtain ⟨e, he, hnow⟩ : ∃ e : ℚ, c.expires = e ∧ e ≤ millis now := by
        cases hexp : c.expires with
        | top => simp [hexp] at hlive
        | coe e => exact ⟨e, rfl, by simpa [hexp] using hlive⟩
      obtain ⟨-, hfull⟩ := hk c hc e he
      have hrate' : 0 ≤ rate / 1000 := div_nonneg hrate (by norm_num)
      have hsince : (e - c.bucket.counted) * (rate / 1000) ≤
          (millis now - c.bucket.counted) * (rate / 1000) :=
        mul_le_mul_of_nonneg_right (by linarith) hrate'
      have hnone : k.live key now = none := by
        rw [live, hc, Option.filter_some, if_neg (by simpa using hlive)]
      simp only [hnone, Option.map_none, Option.map_some, TokenBucket.filled, Option.getD_none,
        Option.getD_some, sub_self, zero_mul, add_zero, min_self]
      exact (min_eq_left (hfull.trans (by linarith))).symm

/-- A bucket that is granted tokens is full again before its key expires. -/
theorem refills_granted {left : ℚ} {kept : WithTop ℚ} (hrate : 0 < rate) (hburst : 0 ≤ burst)
    (hleft : 0 ≤ left) :
    RedisBucket.Refills rate burst ⟨⟨left, millis now⟩, expiry true kept rate burst now⟩ := by
  intro e he
  refine ⟨hrate, ?_⟩
  have hset : expiry true kept rate burst now =
      ((millis now + (⌈burst / rate * 1000⌉ + 1) * 1000 : ℚ) : WithTop ℚ) :=
    if_pos ⟨rfl, hrate.ne'⟩
  have he' : (millis now + (⌈burst / rate * 1000⌉ + 1) * 1000 : ℚ) = e :=
    WithTop.coe_inj.mp (hset.symm.trans he)
  have hburst' : (0 : ℚ) ≤ burst := by exact_mod_cast hburst
  have hceil := Int.le_ceil ((burst : ℚ) / rate * 1000)
  have hmul : (burst : ℚ) / rate * 1000 * rate ≤ ⌈(burst : ℚ) / rate * 1000⌉ * rate :=
    mul_le_mul_of_nonneg_right hceil hrate.le
  have hcancel : (burst : ℚ) / rate * 1000 * rate = burst * 1000 := by
    field_simp
  have hgain : (e - millis now) * (rate / 1000) = (⌈(burst : ℚ) / rate * 1000⌉ + 1) * rate := by
    rw [← he']
    ring
  calc (burst : ℚ) ≤ burst * 1000 := by linarith
    _ ≤ ⌈(burst : ℚ) / rate * 1000⌉ * rate := by rw [← hcancel]; exact hmul
    _ ≤ left + (e - millis now) * (rate / 1000) := by rw [hgain]; linarith

/-- The time that a key keeps is that of a bucket that is live. -/
theorem live_of_kept {e : ℚ}
    (he : ((k.live key now).map RedisBucket.expires).getD ⊤ = (e : WithTop ℚ)) :
    ∃ c, k key = some c ∧ k.live key now = some c ∧ c.expires = e ∧ (millis now : ℚ) < e := by
  cases hlive : k.live key now with
  | none => simp [hlive] at he
  | some c =>
    rw [hlive, Option.map_some, Option.getD_some] at he
    obtain ⟨hc, hlater⟩ := Option.filter_eq_some_iff.mp hlive
    refine ⟨c, hc, rfl, he, ?_⟩
    simpa [he] using hlater

/-- Every bucket still refills in time after the script. -/
theorem refills_script (hrate : 0 ≤ rate) (hk : ∀ c ∈ k key, c.Refills rate burst) :
    ∀ c ∈ (k.script key rate burst tokens now).2 key, c.Refills rate burst := by
  intro c hc
  simp only [script, Function.update_self] at hc
  obtain rfl := Option.some.inj hc
  by_cases hgranted : (tokens : ℚ) ≤ TokenBucket.filled (rate / 1000) burst (millis now)
      ((k.live key now).map RedisBucket.bucket)
  · rw [TokenBucket.take_of_le hgranted]
    by_cases hzero : rate = 0
    · -- nothing is divided by such a rate, and no key has got a time
      intro e he
      have hkept : ((k.live key now).map RedisBucket.expires).getD ⊤ = (e : WithTop ℚ) := by
        simpa [expiry, hzero] using he
      obtain ⟨c, hc, -, hexp, -⟩ := live_of_kept hkept
      exact absurd (hk c hc e hexp).1 (by simp [hzero])
    · have hburst : 0 ≤ burst := by
        have htokens : (0 : ℚ) ≤ tokens := Nat.cast_nonneg tokens
        exact_mod_cast htokens.trans (hgranted.trans TokenBucket.filled_le_burst)
      exact refills_granted (lt_of_le_of_ne hrate (Ne.symm hzero)) hburst (sub_nonneg.mpr hgranted)
  · -- a bucket that is refused keeps its time, and what has come in since is counted
    intro e he
    simp only [TokenBucket.take, if_neg hgranted, expiry, Bool.false_eq_true, false_and,
      if_false] at he ⊢
    obtain ⟨c, hc, hlive, hexp, hlater⟩ := live_of_kept he
    obtain ⟨hpos, hfull⟩ := hk c hc e hexp
    refine ⟨hpos, ?_⟩
    have hrest : 0 ≤ (e - millis now) * (rate / 1000) :=
      mul_nonneg (sub_nonneg.mpr hlater.le) (div_nonneg hrate (by norm_num))
    rw [hlive, Option.map_some, TokenBucket.filled, Option.getD_some]
    rcases min_choice (burst : ℚ) (c.bucket.tokens + (millis now - c.bucket.counted) * (rate / 1000))
      with hmin | hmin
    · rw [hmin]
      linarith
    · rw [hmin]
      linarith

end RedisTokenBucketBackend

/-! ## Both backends on the same requests -/

/-- Both backends.  `rounded` is no part of the program: it is the memory that would ask once for
each request, at whole milliseconds. -/
structure TokenBuckets where
  memory : MemoryTokenBucketBackend := fun _ => none
  redis : RedisTokenBucketBackend := fun _ => none
  rounded : MemoryTokenBucketBackend := fun _ => none

namespace TokenBuckets

open RedisTokenBucketBackend (millis)
open MemoryTokenBucketBackend (GivesUp)

variable {s : TokenBuckets} {rate : ℚ} {burst : ℤ} {r : BucketRequest}

/-- One request, served by both. -/
def step (rate : ℚ) (burst : ℤ) (s : TokenBuckets) (r : BucketRequest) : TokenBuckets where
  memory := ((s.memory.serve rate burst r).map Prod.snd).getD s.memory
  redis := (s.redis.acquire r.key rate burst r.tokens r.time .answered).2
  rounded := (s.rounded.acquire r.key (rate / 1000) burst r.tokens (millis r.time)).2

/-- The answers of the memory, none where it does not return, and of Redis. -/
def answers (rate : ℚ) (burst : ℤ) (s : TokenBuckets) (r : BucketRequest) :
    List (Option Admission × Admission) :=
  [((s.memory.serve rate burst r).map Prod.fst,
    (s.redis.acquire r.key rate burst r.tokens r.time .answered).1)]

/-- The tokens are there when the request comes. -/
def Ready (rate : ℚ) (burst : ℤ) (s : TokenBuckets) (r : BucketRequest) : Prop :=
  (r.tokens : ℚ) ≤ s.memory.level r.key rate burst r.time

/-- The tokens are there where all requests come at whole milliseconds and none waits. -/
def ReadyRounded (rate : ℚ) (burst : ℤ) (s : TokenBuckets) (r : BucketRequest) : Prop :=
  (r.tokens : ℚ) ≤ s.rounded.level r.key (rate / 1000) burst (millis r.time)

/-- The timeout ends before the tokens are there. -/
def TooLate (rate : ℚ) (burst : ℤ) (s : TokenBuckets) (r : BucketRequest) : Prop :=
  GivesUp rate r.tokens r.timeout (s.memory.level r.key rate burst r.time)

/-- A request that both answer alike: its tokens are there at whole milliseconds, and in memory
too or before the timeout ends; or they are there in neither and there is a timeout, which ends
before they come. -/
def Agreed (rate : ℚ) (burst : ℤ) (s : TokenBuckets) (r : BucketRequest) : Prop :=
  s.ReadyRounded rate burst r ∧
      (s.Ready rate burst r ∨ rate ≠ 0 ∧ (r.tokens : ℚ) ≤ burst ∧ ¬s.TooLate rate burst r) ∨
    ¬s.ReadyRounded rate burst r ∧ ¬s.Ready rate burst r ∧ rate ≠ 0 ∧ r.timeout ≠ none ∧
      (s.TooLate rate burst r ∨ (burst : ℚ) < r.tokens)

/-- Redis keeps what the memory would at whole milliseconds. -/
structure Mirrored (rate : ℚ) (burst : ℤ) (s : TokenBuckets) : Prop where
  eq : ∀ key, (s.redis key).map RedisBucket.bucket = s.rounded key
  refills : ∀ key, ∀ c ∈ s.redis key, c.Refills rate burst

theorem mirrored_new : ({} : TokenBuckets).Mirrored rate burst := by
  constructor
  · intro key
    rfl
  · intro key c hc
    cases hc

/-- What the script finds. -/
theorem Mirrored.filled (hs : s.Mirrored rate burst) (hrate : 0 ≤ rate) :
    TokenBucket.filled (rate / 1000) burst (millis r.time)
        ((s.redis.live r.key r.time).map RedisBucket.bucket) =
      s.rounded.level r.key (rate / 1000) burst (millis r.time) := by
  rw [RedisTokenBucketBackend.filled_live hrate (hs.refills r.key), hs.eq]
  rfl

/-- **Redis keeps what the memory would** at whole milliseconds. -/
theorem mirrored_step (hs : s.Mirrored rate burst) (hrate : 0 ≤ rate) (r : BucketRequest) :
    (s.step rate burst r).Mirrored rate burst := by
  constructor
  · intro key
    by_cases hkey : key = r.key
    · subst hkey
      have hlevel : TokenBucket.filled (rate / 1000) burst (millis r.time) (s.rounded r.key) =
          TokenBucket.filled (rate / 1000) burst (millis r.time)
            ((s.redis.live r.key r.time).map RedisBucket.bucket) := (hs.filled hrate).symm
      simp only [step, RedisTokenBucketBackend.acquire, RedisLink.reaches, if_true,
        RedisTokenBucketBackend.script, MemoryTokenBucketBackend.acquire, Function.update_self,
        Option.map_some, TokenBucket.take, hlevel]
    · have hredis : (s.step rate burst r).redis key = s.redis key := Function.update_of_ne hkey _ _
      have hrounded : (s.step rate burst r).rounded key = s.rounded key :=
        Function.update_of_ne hkey _ _
      rw [hredis, hrounded, hs.eq]
  · intro key c hc
    by_cases hkey : key = r.key
    · subst hkey
      exact RedisTokenBucketBackend.refills_script hrate (hs.refills r.key) c hc
    · have hsame : (s.step rate burst r).redis key = s.redis key := Function.update_of_ne hkey _ _
      exact hs.refills key c (hsame ▸ hc)

/-- Redis grants what is there at whole milliseconds. -/
theorem Mirrored.answer_eq (hs : s.Mirrored rate burst) (hrate : 0 ≤ rate) (r : BucketRequest) :
    (s.redis.acquire r.key rate burst r.tokens r.time .answered).1 = .granted ∧
        s.ReadyRounded rate burst r ∨
      (s.redis.acquire r.key rate burst r.tokens r.time .answered).1 = .refused ∧
        ¬s.ReadyRounded rate burst r := by
  have hfilled := @Mirrored.filled s rate burst r hs hrate
  simp only [RedisTokenBucketBackend.acquire, if_true, RedisTokenBucketBackend.script,
    TokenBucket.take, hfilled]
  by_cases hready : s.ReadyRounded rate burst r
  · left
    refine ⟨?_, hready⟩
    rw [ReadyRounded] at hready
    rw [if_pos hready]
    rfl
  · right
    refine ⟨?_, hready⟩
    rw [ReadyRounded] at hready
    rw [if_neg hready]
    rfl

/-- The memory grants a request whose tokens are there, or come in time. -/
theorem outcome_granted_iff : s.memory.outcome rate burst r = some .granted ↔
    s.Ready rate burst r ∨ rate ≠ 0 ∧ (r.tokens : ℚ) ≤ burst ∧ ¬s.TooLate rate burst r := by
  simp only [MemoryTokenBucketBackend.outcome, Ready, TooLate]
  split_ifs with hready hzero hlate hfits
  · simp [hready]
  · have hnot : ¬rate ≠ 0 := not_not.mpr hzero
    simp only [hready, hnot, false_and, or_false, iff_false]
    decide
  · simp [hready, hlate]
  · simp [hzero, hlate, hfits]
  · cases r.timeout <;> simp [hready, hfits]

/-- The memory refuses a request with a timeout that ends before the tokens come. -/
theorem outcome_refused_iff : s.memory.outcome rate burst r = some .refused ↔
    ¬s.Ready rate burst r ∧ rate ≠ 0 ∧ r.timeout ≠ none ∧
      (s.TooLate rate burst r ∨ (burst : ℚ) < r.tokens) := by
  simp only [MemoryTokenBucketBackend.outcome, Ready, TooLate]
  split_ifs with hready hzero hlate hfits
  · simp [hready]
  · simp [hzero]
  · have htimeout : r.timeout ≠ none := by
      obtain ⟨t, ht, -⟩ := hlate
      intro hnone
      rw [hnone] at ht
      cases ht
    simp [hready, hzero, hlate, htimeout]
  · simp [hlate, hfits]
  · cases r.timeout with
    | none => simp
    | some t => simp [hready, hzero, not_le.mp hfits]

/-- One request is answered alike exactly where it is such a one. -/
theorem same_answer_iff (hs : s.Mirrored rate burst) (hrate : 0 ≤ rate) :
    (∀ d ∈ s.answers rate burst r, d.1 = some d.2) ↔ s.Agreed rate burst r := by
  have hmemory := @MemoryTokenBucketBackend.serve_outcome s.memory rate burst r hrate
  simp only [answers, List.mem_singleton, forall_eq, hmemory]
  rcases hs.answer_eq hrate r with ⟨hanswer, hready⟩ | ⟨hanswer, hready⟩
  · rw [hanswer, outcome_granted_iff]
    simp [Agreed, hready]
  · rw [hanswer, outcome_refused_iff]
    simp [Agreed, hready]

/-- Two requests at one time, of a bucket for one. -/
def twoRequests : List BucketRequest :=
  [{ key := Text.of "site", tokens := 1, time := 1 }, { key := Text.of "site", tokens := 1, time := 1 }]

/-- The memory keeps the same tokens, counted at whole milliseconds. -/
def Scaled (s : TokenBuckets) : Prop :=
  ∀ key, s.rounded key = (s.memory key).map fun b => ⟨b.tokens, b.counted * 1000⟩

/-- Requests at whole milliseconds that do not wait. -/
def AtOnce (r : BucketRequest) : Prop := r.timeout = some 0 ∧ (millis r.time : ℚ) = r.time * 1000

theorem Scaled.level (hs : s.Scaled) (hr : AtOnce r) :
    s.rounded.level r.key (rate / 1000) burst (millis r.time) =
      s.memory.level r.key rate burst r.time := by
  simp only [MemoryTokenBucketBackend.level, hs r.key, hr.2, TokenBucket.filled]
  cases s.memory r.key with
  | none => simp
  | some b =>
    simp only [Option.map_some, Option.getD_some]
    congr 2
    ring

/-- A request that does not wait takes its tokens, or none. -/
theorem serve_atOnce {m : MemoryTokenBucketBackend} (hr : AtOnce r) :
    m.serve rate burst r = some (m.acquire r.key rate burst r.tokens r.time) := by
  simp only [MemoryTokenBucketBackend.serve, hr.1, Option.map_some, MemoryTokenBucketBackend.rounds,
    MemoryTokenBucketBackend.acquireFor, or_true, if_true, ite_self]

theorem scaled_step (hs : s.Scaled) (hr : AtOnce r) :
    (s.step rate burst r).Scaled := by
  intro key
  have hlevel := @Scaled.level s rate burst r hs hr
  simp only [step, serve_atOnce hr, Option.map_some, Option.getD_some]
  by_cases hkey : key = r.key
  · subst hkey
    simp only [MemoryTokenBucketBackend.level, hr.2] at hlevel
    simp only [MemoryTokenBucketBackend.acquire, Function.update_self, Option.map_some,
      TokenBucket.take, hr.2, hlevel]
    split_ifs <;> rfl
  · simp only [MemoryTokenBucketBackend.acquire, Function.update_of_ne hkey, hs key]

/-- Such a request is answered alike. -/
theorem agreed_atOnce (hs : s.Scaled) (hrate : rate ≠ 0) (hr : AtOnce r) :
    s.Agreed rate burst r := by
  have hlate : s.TooLate rate burst r := ⟨0, hr.1, .inl rfl⟩
  have hsame : s.ReadyRounded rate burst r ↔ s.Ready rate burst r := by
    rw [ReadyRounded, Ready, hs.level hr]
  by_cases hready : s.Ready rate burst r
  · exact .inl ⟨hsame.mpr hready, .inl hready⟩
  · exact .inr ⟨mt hsame.mp hready, hready, hrate, by simp [hr.1], .inl hlate⟩

/-- Three requests, the second of which both refuse. -/
def threeRequests : List BucketRequest :=
  [⟨[], 1, some 0, 0⟩, ⟨[], 1, some 0, 0⟩, ⟨[], 1, some 0, 2⟩]

end TokenBuckets

end WolfNas
