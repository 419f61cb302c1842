import WolfNas.Lib.Run
import WolfNas.Limit.Backends
import Mathlib.Data.NNRat.Defs

/-!
# The minimum interval between the requests of a site

A site's note asks for a rate and a burst.  The service takes a rate that is too fast down to one
request in the minimum interval, with a burst of one; a rate that is slow enough keeps the burst
of its note, so that requests come as close as they like until the burst is spent.

## Main definitions

* `NoteValue`, `NoteFields`, `SiteNote` — the note of a site.
* `NoteFields.asked` — the rate and the burst that a note asks for.
* `SiteRateLimiterService.registerSite`, `SiteRateLimiterService.check` — the service.
* `SiteRun` — registrations and requests one after another.
* `SiteNote.Single` — the note asks for no burst, or for a rate that is too fast.

## Main results

* `SiteRun.spaced_iff` — the requests granted are apart exactly where every note is such a note.
* `SiteRun.burst_granted` — `60/h` grants two requests at once.
-/

namespace WolfNas

open Text

/-! ## Notes -/

/-- A value of a note, with what `str` makes of those that are neither a text nor a number. -/
inductive NoteValue
  | null
  | bool (b : Bool)
  | int (n : ℤ)
  | float (x : ℚ) (shown : Text)
  | text (t : Text)
  | other (full : Bool) (shown : Text)
  deriving DecidableEq

namespace NoteValue

/-- `bool(value)`. -/
def truthy : NoteValue → Bool
  | null => false
  | bool b => b
  | int n => n ≠ 0
  | float x _ => x ≠ 0
  | text t => t ≠ []
  | other full _ => full

/-- `str(value)`. -/
def shown : NoteValue → Text
  | null => Text.of "None"
  | bool b => Text.of (if b then "True" else "False")
  | int n => ofInt n
  | float _ s => s
  | text t => t
  | other _ s => s

/-- `int(value)`; none where it raises. -/
def asInt : NoteValue → Option ℤ
  | null => none
  | bool b => some (if b then 1 else 0)
  | int n => some n
  | float x _ => some (if 0 ≤ x then ⌊x⌋ else ⌈x⌉)
  | text t => parseInt t
  | other _ _ => none

end NoteValue

/-- The fields of a note that the service reads. -/
structure NoteFields where
  rateLimit : NoteValue := .null
  rateBurst : NoteValue := .null
  limitInterval : NoteValue := .null
  limitCount : NoteValue := .null
  limitSeconds : NoteValue := .null
  deriving DecidableEq

/-- A note: none, or a text that is no JSON; its fields; or JSON of something else. -/
inductive SiteNote
  | unread
  | fields (f : NoteFields)
  | other
  deriving DecidableEq

/-- What `float` reads. -/
inductive FloatText
  | value (x : ℚ)
  | infinite
  | nan
  deriving DecidableEq

/-- The digits of a part of a number, and how many they are; single underscores may stand
between digits. -/
def floatPart (s : Text) : Option (ℕ × ℕ) :=
  if s = [] then some (0, 0)
  else (parseDigits s none false).map fun n => (n, (s.filter Char.isDigit).length)

/-- A sign, where there is one, and what comes after it. -/
def signOf : Text → Bool × Text
  | '-' :: s => (true, s)
  | '+' :: s => (false, s)
  | s => (false, s)

/-- `float(text)`; none where it raises. -/
def parseFloat (s : Text) : Option FloatText :=
  let (negative, t) := signOf (lower s.strip)
  if t = of "inf" ∨ t = of "infinity" then some .infinite
  else if t = of "nan" then some .nan
  else
    let mantissa := t.takeWhile (· != 'e')
    let (below, exponent) := signOf (t.dropWhile (· != 'e')).tail
    match floatPart (mantissa.takeWhile (· != '.')),
        floatPart (mantissa.dropWhile (· != '.')).tail,
        if 'e' ∈ t then parseDigits exponent none false else some 0 with
    | some (n, k), some (m, l), some e =>
      if k + l = 0 then none
      else
        let x : ℚ := n + m / 10 ^ l
        let x := if below then x / 10 ^ e else x * 10 ^ e
        some (.value (if negative then -x else x))
    | _, _, _ => none

/-- The burst of a rate without one; none where an infinite number is cut off. -/
def defaultBurst (rate : Text) : Option ℤ :=
  match parseFloat (rate.takeWhile (· != '/')) with
  | some (.value x) => some (if 0 ≤ x then ⌊x⌋ else ⌈x⌉)
  | some .infinite => none
  | some .nan => some 10
  | none => some 10

/-- `register_site`, the burst that the note has; none where it raises. -/
def NoteFields.burst (f : NoteFields) : Option (Option ℤ) :=
  if f.rateBurst = .null then some none else f.rateBurst.asInt.map some

/-- `register_site`, the rate and the burst of the older fields. -/
def NoteFields.legacy (f : NoteFields) (burst : Option ℤ) : Option (Text × ℤ) :=
  match f.limitInterval.asInt.filter (· ≠ 0), f.limitCount.asInt.filter (· ≠ 0) with
  | some interval, some count =>
    some (ofInt count ++ of "/" ++ ofInt interval ++ of "s", burst.getD count)
  | _, _ =>
    (f.limitSeconds.asInt.filter (· ≠ 0)).map fun seconds =>
      (of "1/" ++ ofInt seconds ++ of "s", burst.getD 1)

/-- `register_site`, the rate and the burst that the note asks for, where it has any; none where
it raises. -/
def NoteFields.asked (f : NoteFields) : Option (Option (Text × ℤ)) :=
  f.burst.bind fun burst =>
    if f.rateLimit.truthy then
      (burst.or (defaultBurst f.rateLimit.shown)).map fun n => some (f.rateLimit.shown, max 1 n)
    else some ((f.legacy burst).map fun (rate, n) => (rate, max 1 n))

/-- What a note asks for. -/
def SiteNote.asked : SiteNote → Option (Option (Text × ℤ))
  | .unread => some none
  | .fields f => f.asked
  | .other => none

/-! ## The service -/

/-- The rate of one request in some seconds. -/
def onceIn (seconds : ℤ) : Text := of "1/" ++ ofInt seconds ++ of "s"

/-- The rate can be read, and lets no more than one request in the interval through. -/
def SlowEnough (minInterval : ℤ) (rate : Text) : Prop :=
  match parseRate rate with
  | none => False
  | some (count, window) => 0 < count ∧ (minInterval : ℚ) ≤ window / count

instance (minInterval : ℤ) (rate : Text) : Decidable (SlowEnough minInterval rate) := by
  unfold SlowEnough
  split <;> infer_instance

/-- `_apply_min_interval`. -/
def applyMinInterval (minInterval : ℤ) (rate : Text) (burst : ℤ) : Text × ℤ :=
  if minInterval ≤ 0 then (rate, burst)
  else match parseRate rate with
    | none => (onceIn minInterval, 1)
    | some (count, window) =>
      if count ≤ 0 then (onceIn minInterval, 1)
      else if (minInterval : ℚ) ≤ window / count then (rate, burst)
      else (onceIn minInterval, 1)

/-- `SiteRateLimiterService`. -/
structure SiteRateLimiterService where
  engine : RateLimitEngine
  siteRates : Text → Option (Text × ℤ) := fun _ => none

namespace SiteRateLimiterService

/-- `register_site`: the rate of the site, where it gets one; none where it raises. -/
def rateOf (minInterval : ℤ) (note : SiteNote) : Option (Option (Text × ℤ)) :=
  note.asked.map fun
    | some (rate, burst) => some (applyMinInterval minInterval rate burst)
    | none => if 0 < minInterval then some (onceIn minInterval, 1) else none

/-- `register_site`; nothing is registered where it raises. -/
def registerSite (s : SiteRateLimiterService) (minInterval : ℤ) (site : Text) (note : SiteNote) :
    SiteRateLimiterService :=
  match rateOf minInterval note with
  | none => s
  | some rate => { s with siteRates := Function.update s.siteRates site rate }

/-- The key of a site. -/
def key (site : Text) : Text := of "site:" ++ site

/-- `check`, asking once; none for a site that is not limited. -/
def check (s : SiteRateLimiterService) (site : Text) (now : ℚ) (link : RedisLink) :
    Option Admission × SiteRateLimiterService :=
  match s.siteRates site with
  | none => (none, s)
  | some (rate, burst) =>
    let (answer, engine) := s.engine.acquire (key site) rate (some burst) 1 false now link
    (some answer, { s with engine })

end SiteRateLimiterService

/-! ## Runs -/

/-- What happens to the service: a site is registered, or requested some time later. -/
inductive SiteMove
  | register (site : Text) (note : SiteNote)
  | request (site : Text) (later : ℚ≥0) (link : RedisLink)

/-- The service, its clock, and the requests that it granted, by the time it read. -/
structure SiteRun where
  service : SiteRateLimiterService
  clock : ℚ := 0
  granted : List (Text × ℚ) := []

namespace SiteRun

/-- A new service. -/
def new (redis : Bool) : SiteRun := { service := { engine := { backend := .new redis } } }

/-- One move. -/
def step (minInterval : ℤ) (r : SiteRun) : SiteMove → SiteRun
  | .register site note =>
    { r with service := r.service.registerSite minInterval site note }
  | .request site later link =>
    let now := r.clock + later
    let (answer, service) := r.service.check site now link
    let time := r.service.engine.backend.reads now
    { service := service
      clock := now
      granted := if answer = some .granted then r.granted ++ [(site, time)] else r.granted }

/-- Two requests of a site are at least the interval apart. -/
def Spaced (minInterval : ℤ) (granted : List (Text × ℚ)) : Prop :=
  granted.Pairwise fun a b => a.1 = b.1 → a.2 + (minInterval : ℚ) ≤ b.2

end SiteRun

/-- The note asks for no burst, or for a rate that is taken down. -/
def SiteNote.Single (minInterval : ℤ) (note : SiteNote) : Prop :=
  match note.asked with
  | some (some (rate, burst)) => burst ≤ 1 ∨ ¬SlowEnough minInterval rate
  | _ => True

instance (minInterval : ℤ) (note : SiteNote) : Decidable (note.Single minInterval) := by
  unfold SiteNote.Single
  split <;> infer_instance

/-! ## Rates -/

theorem parseNumber_digits {digits rest : Text} (hdigits : ∀ c ∈ digits, c.isDigit = true)
    (hne : digits ≠ []) (hrest : ∀ c ∈ rest.head?, c.isDigit = false ∧ c ≠ '.') :
    parseNumber (digits ++ rest) = some ((toNat digits : ℚ), rest) := by
  have htake : (digits ++ rest).takeWhile Char.isDigit = digits :=
    takeWhile_digits hdigits fun c hc => (hrest c hc).1
  have hdrop : (digits ++ rest).dropWhile Char.isDigit = rest :=
    dropWhile_digits hdigits fun c hc => (hrest c hc).1
  simp only [parseNumber, htake, hdrop, if_neg hne]
  cases rest with
  | nil => rfl
  | cons c rest =>
    have hdot := (hrest c rfl).2
    split
    · rename_i h
      exact absurd (List.cons.inj h).1 hdot
    · rfl

/-- The rate of the minimum interval is read as it is meant. -/
theorem parseRate_onceIn (n : ℕ) : parseRate (onceIn n) = some (1, n) := by
  have hdigits : ∀ c ∈ ofNat n, c.isDigit = true := fun c hc => isDigit_of_mem_ofNat hc
  have hnat : toNat (ofNat n) = n := toNat_ofNat n
  have hstrip : (onceIn n).strip = of "1" ++ '/' :: (ofNat n ++ of "s") := by
    have htrimmed : Trimmed (onceIn n) := by
      refine trimmed_of_forall fun c hc => ?_
      have hlead : (of "1/").all (fun c => !isSpace c) = true := by decide
      have htail : (of "s").all (fun c => !isSpace c) = true := by decide
      simp only [onceIn, ofInt, List.mem_append] at hc
      rcases hc with (hc | hc) | hc
      · simpa using List.all_eq_true.mp hlead c hc
      · exact isSpace_of_isDigit (hdigits c hc)
      · simpa using List.all_eq_true.mp htail c hc
    rw [strip_of_trimmed htrimmed]
    rfl
  have hcount : parseNumber (of "1" ++ '/' :: (ofNat n ++ of "s")) =
      some ((toNat (of "1") : ℚ), '/' :: (ofNat n ++ of "s")) :=
    parseNumber_digits (List.all_eq_true.mp (by decide)) (by decide) (by simp)
  have hwindow : parseNumber (ofNat n ++ of "s") = some ((toNat (ofNat n) : ℚ), of "s") :=
    parseNumber_digits hdigits (ofNat_ne_nil n) (by simp [of])
  have hone : toNat (of "1") = 1 := by decide
  rw [hnat] at hwindow
  simp only [parseRate, hstrip, hcount, hwindow]
  change some (((toNat (of "1") : ℕ) : ℚ), ⌊(n : ℚ) * ((1 : ℕ) : ℚ)⌋₊) = some (1, n)
  rw [hone]
  simp

/-- What is registered is slow enough, and has no burst where the note asks for none that stays. -/
theorem rateOf_spec {minInterval : ℤ} (hpos : 0 < minInterval) {note : SiteNote} {rate : Text}
    {burst : ℤ} (h : SiteRateLimiterService.rateOf minInterval note = some (some (rate, burst))) :
    SlowEnough minInterval rate ∧ (note.Single minInterval → burst ≤ 1) := by
  have honce : SlowEnough minInterval (onceIn minInterval) := by
    obtain ⟨n, rfl⟩ := Int.eq_ofNat_of_zero_le hpos.le
    have hn : 0 < n := by omega
    rw [SlowEnough, parseRate_onceIn n]
    simp
  simp only [SiteRateLimiterService.rateOf, Option.map_eq_some_iff] at h
  obtain ⟨asked, hasked, h⟩ := h
  cases asked with
  | none =>
    rw [if_pos hpos] at h
    cases h
    exact ⟨honce, fun _ => le_rfl⟩
  | some asked =>
    obtain ⟨rate', burst'⟩ := asked
    simp only [applyMinInterval, if_neg (not_le.mpr hpos), Option.some.injEq] at h
    have hsingle : note.Single minInterval ↔ burst' ≤ 1 ∨ ¬SlowEnough minInterval rate' := by
      rw [SiteNote.Single, hasked]
    cases hparsed : parseRate rate' with
    | none =>
      rw [hparsed] at h
      cases h
      exact ⟨honce, fun _ => le_rfl⟩
    | some parsed =>
      obtain ⟨count, window⟩ := parsed
      rw [hparsed] at h
      dsimp only at h
      split_ifs at h with hcount hslow
      · cases h
        exact ⟨honce, fun _ => le_rfl⟩
      · cases h
        have hslow' : SlowEnough minInterval rate := by
          rw [SlowEnough, hparsed]
          exact ⟨not_le.mp hcount, hslow⟩
        refine ⟨hslow', fun h => ?_⟩
        exact (hsingle.mp h).resolve_right (not_not.mpr hslow')
      · cases h
        exact ⟨honce, fun _ => le_rfl⟩

/-! ## Backends -/

namespace LimitBackend

/-- The bucket of the key has only what came in since the time. -/
def Spent (backend : LimitBackend) (key : Text) (interval time : ℚ) : Prop :=
  match backend with
  | .memory buckets => ∃ b, buckets key = some b ∧ b.SpentAt interval time
  | .redis keys => ∃ cell, keys key = some cell ∧
      cell.bucket.SpentAt (interval * 1000) (time * 1000) ∧
        ((time * 1000 + interval * 1000 : ℚ) : WithTop ℚ) ≤ cell.expires

/-- The buckets were counted until now. -/
def Counted (backend : LimitBackend) (now : ℚ) : Prop :=
  match backend with
  | .memory buckets => ∀ key b, buckets key = some b → b.counted ≤ now
  | .redis keys => ∀ key cell, keys key = some cell →
      cell.bucket.counted ≤ RedisTokenBucketBackend.millis now

variable {backend : LimitBackend} {key : Text} {rate : ℚ} {burst : ℤ} {interval time now : ℚ}
  {link : RedisLink}

/-- The backend is answered, where it asks Redis. -/
def Answered (backend : LimitBackend) (link : RedisLink) : Prop :=
  match backend with
  | .memory _ => True
  | .redis _ => link = .answered

theorem reads_mono (backend : LimitBackend) {t t' : ℚ} (h : t ≤ t') :
    backend.reads t ≤ backend.reads t' := by
  cases backend with
  | memory _ => exact h
  | redis _ =>
    have hcast : (RedisTokenBucketBackend.millis t : ℚ) ≤ RedisTokenBucketBackend.millis t' := by
      exact_mod_cast RedisTokenBucketBackend.millis_mono h
    simp only [reads]
    linarith

theorem reads_acquire {tokens : ℕ} (t : ℚ) :
    (backend.acquire key rate burst tokens now link).2.reads t = backend.reads t := by
  cases backend with
  | memory _ => rfl
  | redis _ => rfl

theorem answered_acquire {tokens : ℕ} {link' : RedisLink} :
    (backend.acquire key rate burst tokens now link).2.Answered link' ↔ backend.Answered link' := by
  cases backend with
  | memory _ => exact Iff.rfl
  | redis _ => exact Iff.rfl

theorem Counted.mono {now' : ℚ} (h : backend.Counted now) (hle : now ≤ now') :
    backend.Counted now' := by
  cases backend with
  | memory _ => exact fun key b hb => (h key b hb).trans hle
  | redis _ =>
    intro key cell hcell
    have hcast : (RedisTokenBucketBackend.millis now : ℚ) ≤ RedisTokenBucketBackend.millis now' := by
      exact_mod_cast RedisTokenBucketBackend.millis_mono hle
    exact (h key cell hcell).trans hcast

/-- What a backend in memory answers. -/
theorem memory_acquire_fst {buckets : MemoryTokenBucketBackend} {tokens : ℕ} (hrate : rate ≠ 0) :
    (buckets.acquire key rate burst tokens now).1 =
      .ofBool (TokenBucket.take rate burst tokens now (buckets key)).1 := by
  have hzero : ¬((TokenBucket.take rate burst tokens now (buckets key)).1 = false ∧ rate = 0) :=
    fun h => hrate h.2
  exact if_neg hzero

/-- The buckets in memory after a request. -/
theorem memory_acquire_snd {buckets : MemoryTokenBucketBackend} {tokens : ℕ} :
    (buckets.acquire key rate burst tokens now).2 =
      Function.update buckets key
        (some (TokenBucket.take rate burst tokens now (buckets key)).2) := rfl

/-- The bucket of a key that was granted a request just now. -/
theorem live_script {keys : RedisTokenBucketBackend} {tokens : ℕ} (hrate : 0 < rate)
    (hburst : 0 ≤ burst)
    (hgranted : (TokenBucket.take (rate / 1000) burst tokens (RedisTokenBucketBackend.millis now)
      ((keys.live key now).map RedisBucket.bucket)).1 = true) :
    ((keys.script key rate burst tokens now).2.live key now).map RedisBucket.bucket =
      some (TokenBucket.take (rate / 1000) burst tokens (RedisTokenBucketBackend.millis now)
        ((keys.live key now).map RedisBucket.bucket)).2 := by
  have hcell : (keys.script key rate burst tokens now).2 key =
      some ⟨(TokenBucket.take (rate / 1000) burst tokens (RedisTokenBucketBackend.millis now)
        ((keys.live key now).map RedisBucket.bucket)).2,
        RedisTokenBucketBackend.expiry true (((keys.live key now).map RedisBucket.expires).getD ⊤)
          rate burst now⟩ := by
    rw [← hgranted]
    exact Function.update_self ..
  have hlater : ((RedisTokenBucketBackend.millis now : ℚ) : WithTop ℚ) <
      RedisTokenBucketBackend.expiry true (((keys.live key now).map RedisBucket.expires).getD ⊤)
        rate burst now := by
    rw [RedisTokenBucketBackend.expiry, if_pos ⟨rfl, hrate.ne'⟩]
    refine WithTop.coe_lt_coe.mpr ?_
    have hburst' : (0 : ℚ) ≤ burst := by exact_mod_cast hburst
    have hquot : 0 ≤ (burst : ℚ) / rate * 1000 := by positivity
    have hceil : (0 : ℚ) ≤ ⌈(burst : ℚ) / rate * 1000⌉ := hquot.trans (Int.le_ceil _)
    linarith
  rw [RedisTokenBucketBackend.live, hcell, Option.filter_some, if_pos (decide_eq_true hlater)]
  rfl

theorem counted_acquire {tokens : ℕ} (h : backend.Counted now) :
    (backend.acquire key rate burst tokens now link).2.Counted now := by
  cases backend with
  | memory buckets =>
    change ∀ key' b, (buckets.acquire key rate burst tokens now).2 key' = some b → b.counted ≤ now
    rw [memory_acquire_snd]
    intro key' b hb
    by_cases hkey : key' = key
    · subst hkey
      rw [Function.update_self] at hb
      cases hb
      exact TokenBucket.counted_take.le
    · rw [Function.update_of_ne hkey] at hb
      exact h key' b hb
  | redis keys =>
    change ∀ key' cell, (if link.reaches then (keys.script key rate burst tokens now).2 else keys)
      key' = some cell → cell.bucket.counted ≤ RedisTokenBucketBackend.millis now
    intro key' cell hcell
    by_cases hreaches : link.reaches
    · obtain ⟨expires, hscript⟩ := @RedisTokenBucketBackend.script_snd keys key rate burst tokens now
      rw [if_pos hreaches, hscript] at hcell
      by_cases hkey : key' = key
      · subst hkey
        rw [Function.update_self] at hcell
        cases hcell
        exact TokenBucket.counted_take.le
      · rw [Function.update_of_ne hkey] at hcell
        exact h key' cell hcell
    · rw [if_neg hreaches] at hcell
      exact h key' cell hcell

/-- Requests of other keys. -/
theorem spent_acquire_of_ne {tokens : ℕ} {key' : Text} (hne : key' ≠ key)
    (h : backend.Spent key' interval time) :
    (backend.acquire key rate burst tokens now link).2.Spent key' interval time := by
  cases backend with
  | memory buckets =>
    obtain ⟨b, hb, hspent⟩ := h
    refine ⟨b, ?_, hspent⟩
    change (buckets.acquire key rate burst tokens now).2 key' = some b
    rw [memory_acquire_snd, Function.update_of_ne hne]
    exact hb
  | redis keys =>
    obtain ⟨cell, hcell, hspent⟩ := h
    refine ⟨cell, ?_, hspent⟩
    change (if link.reaches then (keys.script key rate burst tokens now).2 else keys) key' =
      some cell
    by_cases hreaches : link.reaches
    · obtain ⟨expires, hscript⟩ := @RedisTokenBucketBackend.script_snd keys key rate burst tokens now
      rw [if_pos hreaches, hscript, Function.update_of_ne hne]
      exact hcell
    · rw [if_neg hreaches]
      exact hcell

end LimitBackend

/-! ## Requests of a slow rate with no burst -/

/-- The rate is no faster than one request in the interval, and has no burst. -/
structure Slow (rate : ℚ) (burst : ℤ) (interval : ℚ) : Prop where
  interval_pos : 0 < interval
  rate_pos : 0 < rate
  rate_le : rate * interval ≤ 1
  burst_le : burst ≤ 1

namespace Slow

variable {keys : RedisTokenBucketBackend} {backend : LimitBackend} {key : Text} {rate : ℚ}
  {burst : ℤ} {interval time now : ℚ} {link : RedisLink}

theorem burst_cast (h : Slow rate burst interval) : (burst : ℚ) ≤ 1 := by
  exact_mod_cast h.burst_le

/-- In milliseconds. -/
theorem millis_rate (h : Slow rate burst interval) : rate / 1000 * (interval * 1000) ≤ 1 := by
  have heq : rate / 1000 * (interval * 1000) = rate * interval := by ring
  rw [heq]
  exact h.rate_le

/-- A key that was granted a request outlives the interval. -/
theorem le_expiry (h : Slow rate burst interval) (hburst : 1 ≤ burst) {kept : WithTop ℚ} :
    ((RedisTokenBucketBackend.millis now + interval * 1000 : ℚ) : WithTop ℚ) ≤
      RedisTokenBucketBackend.expiry true kept rate burst now := by
  rw [RedisTokenBucketBackend.expiry, if_pos ⟨rfl, h.rate_pos.ne'⟩]
  refine WithTop.coe_le_coe.mpr ?_
  have hone : (burst : ℚ) = 1 := by exact_mod_cast le_antisymm h.burst_le hburst
  have hinterval : interval ≤ 1 / rate := by
    rw [le_div_iff₀ h.rate_pos, mul_comm]
    exact h.rate_le
  have hceil : (burst : ℚ) / rate * 1000 ≤ ⌈(burst : ℚ) / rate * 1000⌉ := Int.le_ceil _
  rw [hone] at hceil ⊢
  have hrate := h.rate_pos
  have hpos : 0 < 1 / rate := by positivity
  linarith

/-- The key after the script, where its bucket is spent. -/
theorem spent_script (h : Slow rate burst interval) {cell : Option RedisBucket}
    (hcell : keys.live key now = cell)
    (hspent : (TokenBucket.take (rate / 1000) burst (1 : ℕ) (RedisTokenBucketBackend.millis now)
      (cell.map RedisBucket.bucket)).2.SpentAt (interval * 1000) (time * 1000))
    (htime : time * 1000 ≤ RedisTokenBucketBackend.millis now)
    (hkept : (TokenBucket.take (rate / 1000) burst (1 : ℕ) (RedisTokenBucketBackend.millis now)
      (cell.map RedisBucket.bucket)).1 = false →
        ((time * 1000 + interval * 1000 : ℚ) : WithTop ℚ) ≤
          (cell.map RedisBucket.expires).getD ⊤) :
    LimitBackend.Spent (.redis (keys.script key rate burst 1 now).2) key interval time := by
  subst hcell
  refine ⟨_, Function.update_self .., hspent, ?_⟩
  change _ ≤ RedisTokenBucketBackend.expiry
    (TokenBucket.take (rate / 1000) burst (1 : ℕ) (RedisTokenBucketBackend.millis now)
      ((keys.live key now).map RedisBucket.bucket)).1 _ rate burst now
  cases hgranted : (TokenBucket.take (rate / 1000) burst (1 : ℕ)
      (RedisTokenBucketBackend.millis now)
      ((keys.live key now).map RedisBucket.bucket)).1 with
  | false => exact hkept hgranted
  | true =>
    have hburst : 1 ≤ burst := by exact_mod_cast TokenBucket.le_burst_of_take hgranted
    exact (WithTop.coe_le_coe.mpr (by linarith)).trans (h.le_expiry hburst)

/-- A key that is spent stays spent, and the script grants nothing before it is late enough. -/
theorem spent_script_of_spent (h : Slow rate burst interval) {cell : RedisBucket}
    (hcell : keys key = some cell)
    (hcounted : cell.bucket.counted ≤ RedisTokenBucketBackend.millis now)
    (hspent : cell.bucket.SpentAt (interval * 1000) (time * 1000))
    (hkept : ((time * 1000 + interval * 1000 : ℚ) : WithTop ℚ) ≤ cell.expires) :
    ((keys.script key rate burst 1 now).1 = .granted →
      time * 1000 + interval * 1000 ≤ RedisTokenBucketBackend.millis now) ∧
    LimitBackend.Spent (.redis (keys.script key rate burst 1 now).2) key interval time := by
  have hinterval : 0 < interval * 1000 := by linarith [h.interval_pos]
  have htime : time * 1000 ≤ RedisTokenBucketBackend.millis now := hspent.le.trans hcounted
  have hanswer : (keys.script key rate burst 1 now).1 = .granted ↔
      (TokenBucket.take (rate / 1000) burst (1 : ℕ) (RedisTokenBucketBackend.millis now)
        ((keys.live key now).map RedisBucket.bucket)).1 = true := Admission.ofBool_eq_granted
  rw [hanswer]
  by_cases hlive : ((RedisTokenBucketBackend.millis now : ℚ) : WithTop ℚ) < cell.expires
  · have hcell' : keys.live key now = some cell := by
      simp [RedisTokenBucketBackend.live, hcell, Option.filter, hlive]
    refine ⟨fun hgranted => ?_, h.spent_script hcell' ?_ htime fun _ => hkept⟩
    · rw [hcell'] at hgranted
      exact TokenBucket.late_of_take hspent hinterval h.millis_rate hcounted (by simp) hgranted
    · exact hspent.take hinterval h.millis_rate hcounted (by simp)
  · have hcell' : keys.live key now = none := by
      simp [RedisTokenBucketBackend.live, hcell, Option.filter, hlive]
    have hlate : time * 1000 + interval * 1000 ≤ RedisTokenBucketBackend.millis now :=
      WithTop.coe_le_coe.mp (hkept.trans (not_lt.mp hlive))
    refine ⟨fun _ => hlate, h.spent_script hcell' ⟨?_, ?_⟩ htime fun _ => le_top⟩
    · rw [TokenBucket.counted_take]
      exact htime
    · -- a key that is gone is full, but there is no more than one token in it
      have hfull := @TokenBucket.tokens_take_le (rate / 1000) burst
        (RedisTokenBucketBackend.millis now) none (1 : ℕ) (by norm_num)
      have hone : (TokenBucket.take (rate / 1000) burst (1 : ℕ)
          (RedisTokenBucketBackend.millis now) none).2.tokens ≤ 1 :=
        (hfull.trans TokenBucket.filled_le_burst).trans h.burst_cast
      rw [TokenBucket.counted_take, Option.map_none]
      have hmul := mul_le_mul_of_nonneg_right hone hinterval.le
      linarith

/-- **A request that is granted** is an interval later than any time since which the key is
spent. -/
theorem late (h : Slow rate burst interval) (hans : backend.Answered link)
    (hcounted : backend.Counted now) (hspent : backend.Spent key interval time)
    (hgranted : (backend.acquire key rate burst 1 now link).1 = .granted) :
    time + interval ≤ backend.reads now := by
  cases backend with
  | memory buckets =>
    obtain ⟨b, hb, hspent⟩ := hspent
    change (buckets.acquire key rate burst 1 now).1 = .granted at hgranted
    rw [LimitBackend.memory_acquire_fst h.rate_pos.ne', Admission.ofBool_eq_granted, hb] at hgranted
    exact TokenBucket.late_of_take hspent h.interval_pos h.rate_le (hcounted key b hb) (by simp)
      hgranted
  | redis keys =>
    obtain ⟨cell, hcell, hspent, hkept⟩ := hspent
    cases hans
    have hlate := (h.spent_script_of_spent hcell (hcounted key cell hcell) hspent hkept).1 hgranted
    simp only [LimitBackend.reads]
    linarith

/-- The key is spent from the time of a request that is granted. -/
theorem spent_of_granted (h : Slow rate burst interval) (hans : backend.Answered link)
    (hgranted : (backend.acquire key rate burst 1 now link).1 = .granted) :
    (backend.acquire key rate burst 1 now link).2.Spent key interval (backend.reads now) := by
  cases backend with
  | memory buckets =>
    change (buckets.acquire key rate burst 1 now).1 = .granted at hgranted
    rw [LimitBackend.memory_acquire_fst h.rate_pos.ne', Admission.ofBool_eq_granted] at hgranted
    exact ⟨_, Function.update_self ..,
      TokenBucket.spentAt_take h.interval_pos (by simpa using h.burst_cast) hgranted⟩
  | redis keys =>
    cases hans
    have htaken : (TokenBucket.take (rate / 1000) burst (1 : ℕ)
        (RedisTokenBucketBackend.millis now)
        ((keys.live key now).map RedisBucket.bucket)).1 = true :=
      Admission.ofBool_eq_granted.mp hgranted
    have hinterval : 0 < interval * 1000 := by linarith [h.interval_pos]
    have htime : (LimitBackend.redis keys).reads now * 1000 =
        RedisTokenBucketBackend.millis now := by
      simp [LimitBackend.reads]
    have hspent := TokenBucket.spentAt_take hinterval (by simpa using h.burst_cast) htaken
    refine h.spent_script rfl (by rw [htime]; exact hspent) htime.le ?_
    intro hrefused
    rw [htaken] at hrefused
    cases hrefused

/-- It stays so, whatever is asked. -/
theorem spent_acquire (h : Slow rate burst interval) (hans : backend.Answered link)
    (hcounted : backend.Counted now) (hspent : backend.Spent key interval time) :
    (backend.acquire key rate burst 1 now link).2.Spent key interval time := by
  cases backend with
  | memory buckets =>
    obtain ⟨b, hb, hspent⟩ := hspent
    refine ⟨_, Function.update_self .., ?_⟩
    rw [hb]
    exact hspent.take h.interval_pos h.rate_le (hcounted key b hb) (by simp)
  | redis keys =>
    obtain ⟨cell, hcell, hspent, hkept⟩ := hspent
    cases hans
    exact (h.spent_script_of_spent hcell (hcounted key cell hcell) hspent hkept).2

end Slow

/-- What a rate that is slow enough is in the engine. -/
theorem slow_of_slowEnough {minInterval : ℤ} (hpos : 0 < minInterval) {rate : Text} {count : ℚ}
    {window : ℕ} {burst : ℤ} (hslow : SlowEnough minInterval rate)
    (hparsed : parseRate rate = some (count, window)) (hburst : burst ≤ 1) :
    window ≠ 0 ∧ Slow (count / window) burst minInterval := by
  rw [SlowEnough, hparsed] at hslow
  obtain ⟨hcount, hle⟩ := hslow
  have hinterval : (0 : ℚ) < minInterval := by exact_mod_cast hpos
  have hwindow : (0 : ℚ) < window := by
    have hquot : 0 < (window : ℚ) / count := hinterval.trans_le hle
    rw [lt_div_iff₀ hcount, zero_mul] at hquot
    exact hquot
  refine ⟨by exact_mod_cast hwindow.ne', hinterval, div_pos hcount hwindow, ?_, hburst⟩
  have hmul := mul_le_mul_of_nonneg_left hle (div_pos hcount hwindow).le
  have hone : count / window * (window / count) = 1 := by
    rw [div_mul_div_comm, mul_comm, div_self (mul_ne_zero hwindow.ne' hcount.ne')]
  rwa [hone] at hmul

/-! ## Runs -/

namespace SiteRun

variable {minInterval : ℤ} {redis : Bool} {notes : SiteNote → Prop} {r : SiteRun}

/-- The backend of a run. -/
abbrev backend (r : SiteRun) : LimitBackend := r.service.engine.backend

/-- The notes are of the kind, and Redis answers where it is asked. -/
def Answers (redis : Bool) (notes : SiteNote → Prop) : SiteMove → Prop
  | .register _ note => notes note
  | .request _ _ link => redis = true → link = .answered

/-- The backend is the one that the service was made with. -/
def Kept (redis : Bool) (r : SiteRun) : Prop :=
  ∀ link, (redis = true → link = .answered) → r.backend.Answered link

/-- What holds after every move: the times of the requests granted go up. -/
structure Timed (r : SiteRun) : Prop where
  le_reads : ∀ p ∈ r.granted, p.2 ≤ r.backend.reads r.clock
  sorted : r.granted.Pairwise fun a b => a.2 ≤ b.2

/-- The run after a request that the backend was asked for. -/
def afterAsked (r : SiteRun) (site : Text) (now : ℚ) (asked : Admission × LimitBackend) :
    SiteRun where
  service := { r.service with engine := { r.service.engine with backend := asked.2 } }
  clock := now
  granted := if asked.1 = .granted then r.granted ++ [(site, r.backend.reads now)] else r.granted

/-- A request of a site whose rate can be read. -/
theorem step_request {site rate : Text} {burst : ℤ} {count : ℚ} {window : ℕ}
    (hrates : r.service.siteRates site = some (rate, burst))
    (hparsed : parseRate rate = some (count, window)) (hwindow : window ≠ 0) (later : ℚ≥0)
    (link : RedisLink) :
    r.step minInterval (.request site later link) = r.afterAsked site (r.clock + later)
      (r.backend.acquire (SiteRateLimiterService.key site) (count / window) burst 1
        (r.clock + later) link) := by
  simp [step, SiteRateLimiterService.check, hrates, RateLimitEngine.acquire, hparsed, hwindow,
    backend, afterAsked]

/-- A request is of a site that is not limited, raises, or is asked for at the backend. -/
theorem request_cases (r : SiteRun) (site : Text) (later : ℚ≥0) (link : RedisLink) :
    r.step minInterval (.request site later link) = { r with clock := r.clock + later } ∨
    ∃ rate burst count window, r.service.siteRates site = some (rate, burst) ∧
      parseRate rate = some (count, window) ∧
      r.step minInterval (.request site later link) = r.afterAsked site (r.clock + later)
        (r.backend.acquire (SiteRateLimiterService.key site) (count / window) burst 1
          (r.clock + later) link) := by
  cases hrates : r.service.siteRates site with
  | none =>
    refine .inl ?_
    simp [step, SiteRateLimiterService.check, hrates]
  | some rates =>
    obtain ⟨rate, burst⟩ := rates
    cases hparsed : parseRate rate with
    | none =>
      refine .inl ?_
      simp [step, SiteRateLimiterService.check, hrates, RateLimitEngine.acquire, hparsed]
    | some parsed =>
      obtain ⟨count, window⟩ := parsed
      by_cases hwindow : window = 0
      · refine .inl ?_
        simp [step, SiteRateLimiterService.check, hrates, RateLimitEngine.acquire, hparsed,
          hwindow]
      · exact .inr ⟨rate, burst, count, window, rfl, hparsed,
          step_request hrates hparsed hwindow later link⟩

theorem le_clock (r : SiteRun) (later : ℚ≥0) : r.clock ≤ r.clock + later := by
  have hlater : (0 : ℚ) ≤ later := later.2
  linarith

theorem Timed.step (h : r.Timed) (move : SiteMove) : (r.step minInterval move).Timed := by
  cases move with
  | register site note =>
    refine ⟨?_, ?_⟩
    · simp only [SiteRun.step, SiteRateLimiterService.registerSite]
      cases SiteRateLimiterService.rateOf minInterval note with
      | none => exact h.le_reads
      | some rate => exact h.le_reads
    · exact h.sorted
  | request site later link =>
    have hlater : ∀ p ∈ r.granted, p.2 ≤ r.backend.reads (r.clock + later) := fun p hp =>
      (h.le_reads p hp).trans (LimitBackend.reads_mono _ (r.le_clock later))
    rcases r.request_cases site later link with hstep |
        ⟨rate, burst, count, window, -, -, hstep⟩
    · rw [hstep]
      exact ⟨hlater, h.sorted⟩
    · rw [hstep]
      refine ⟨?_, ?_⟩
      · intro p hp
        simp only [afterAsked, backend, LimitBackend.reads_acquire] at hp ⊢
        split_ifs at hp
        · rcases List.mem_append.mp hp with hp | hp
          · exact hlater p hp
          · rw [List.mem_singleton.mp hp]
        · exact hlater p hp
      · simp only [afterAsked]
        split_ifs
        · refine List.pairwise_append.mpr ⟨h.sorted, List.pairwise_singleton _ _, ?_⟩
          intro a ha b hb
          rw [List.mem_singleton.mp hb]
          exact hlater a ha
        · exact h.sorted

/-- The times go up in every run. -/
theorem timed_run (moves : List SiteMove) :
    (moves.foldl (SiteRun.step minInterval) (new redis)).Timed := by
  refine Run.invariant _ ⟨?_, List.Pairwise.nil⟩ fun r h move _ => h.step move
  intro p hp
  cases hp

/-- What holds after every move where the notes ask for no burst. -/
structure Single (redis : Bool) (minInterval : ℤ) (r : SiteRun) : Prop where
  kept : r.Kept redis
  counted : r.backend.Counted r.clock
  slow : ∀ site rate burst, r.service.siteRates site = some (rate, burst) →
    SlowEnough minInterval rate ∧ burst ≤ 1
  spent : ∀ p ∈ r.granted, r.backend.Spent (SiteRateLimiterService.key p.1) minInterval p.2
  spaced : Spaced minInterval r.granted

theorem single_new : (new redis).Single redis minInterval := by
  refine ⟨?_, ?_, ?_, ?_, List.Pairwise.nil⟩
  · cases redis
    · exact fun _ _ => trivial
    · exact fun _ h => h rfl
  · cases redis
    · intro key b hb
      cases hb
    · intro key cell hcell
      cases hcell
  · intro site rate burst hrates
    cases hrates
  · intro p hp
    cases hp

/-- A registration puts a rate in that is slow enough. -/
theorem Single.register (hpos : 0 < minInterval) (h : r.Single redis minInterval) {site : Text}
    {note : SiteNote} (hnote : note.Single minInterval) :
    (r.step minInterval (.register site note)).Single redis minInterval := by
  simp only [step, SiteRateLimiterService.registerSite]
  cases hrate : SiteRateLimiterService.rateOf minInterval note with
  | none => exact ⟨h.kept, h.counted, h.slow, h.spent, h.spaced⟩
  | some registered =>
    refine ⟨h.kept, h.counted, ?_, h.spent, h.spaced⟩
    intro site' rate burst hrates
    by_cases hsite : site' = site
    · subst hsite
      simp only [Function.update_self] at hrates
      subst hrates
      have hspec := rateOf_spec hpos hrate
      exact ⟨hspec.1, hspec.2 hnote⟩
    · simp only [Function.update_of_ne hsite] at hrates
      exact h.slow site' rate burst hrates

/-- The keys of sites are apart. -/
theorem key_injective : Function.Injective SiteRateLimiterService.key := by
  intro site site' h
  exact List.append_cancel_left h

/-- **A request** is granted an interval after the last one of its site, or later. -/
theorem Single.request (hpos : 0 < minInterval) (h : r.Single redis minInterval) {site : Text}
    {later : ℚ≥0} {link : RedisLink} (hlink : redis = true → link = .answered) :
    (r.step minInterval (.request site later link)).Single redis minInterval := by
  have hcounted := h.counted.mono (r.le_clock later)
  rcases r.request_cases site later link with hstep |
      ⟨rate, burst, count, window, hrates, hparsed, hstep⟩
  · rw [hstep]
    exact ⟨h.kept, hcounted, h.slow, h.spent, h.spaced⟩
  · obtain ⟨hrate, hburst⟩ := h.slow site rate burst hrates
    have hslow := (slow_of_slowEnough hpos hrate hparsed hburst).2
    have hans := h.kept link hlink
    -- the requests granted before, at the backend as it is now
    have hspent : ∀ p ∈ r.granted, (r.backend.acquire (SiteRateLimiterService.key site)
        (count / window) burst 1 (r.clock + later) link).2.Spent
          (SiteRateLimiterService.key p.1) minInterval p.2 := by
      intro p hp
      by_cases hsite : p.1 = site
      · have hp := h.spent p hp
        rw [hsite] at hp ⊢
        exact hslow.spent_acquire hans hcounted hp
      · exact LimitBackend.spent_acquire_of_ne (fun hkey => hsite (key_injective hkey))
          (h.spent p hp)
    rw [hstep]
    refine ⟨?_, LimitBackend.counted_acquire hcounted, h.slow, ?_, ?_⟩
    · intro link' hlink'
      exact LimitBackend.answered_acquire.mpr (h.kept link' hlink')
    · intro p hp
      simp only [afterAsked] at hp ⊢
      split_ifs at hp with hgranted
      · rcases List.mem_append.mp hp with hp | hp
        · exact hspent p hp
        · rw [List.mem_singleton.mp hp]
          exact hslow.spent_of_granted hans hgranted
      · exact hspent p hp
    · simp only [afterAsked]
      split_ifs with hgranted
      · refine List.pairwise_append.mpr ⟨h.spaced, List.pairwise_singleton _ _, ?_⟩
        intro a ha b hb
        rw [List.mem_singleton.mp hb]
        intro hsite
        have ha := h.spent a ha
        rw [hsite] at ha
        exact hslow.late hans hcounted ha hgranted
      · exact h.spaced

/-- What notes that ask for no burst keep in every run. -/
theorem single_run (hpos : 0 < minInterval) (hnotes : ∀ note, notes note → note.Single minInterval)
    {moves : List SiteMove} (hmoves : ∀ move ∈ moves, Answers redis notes move) :
    (moves.foldl (SiteRun.step minInterval) (new redis)).Single redis minInterval := by
  refine Run.invariant _ single_new ?_
  intro r h move hmove
  have hanswers := hmoves move hmove
  cases move with
  | register site note => exact h.register hpos (hnotes note hanswers)
  | request site later link => exact h.request hpos hanswers

/-! ## A burst -/

/-- A new backend grants two requests at once where both fit in. -/
theorem acquire_twice (redis : Bool) {key : Text} {rate : ℚ} {burst : ℤ} (hrate : 0 < rate)
    (hburst : 2 ≤ burst) :
    let asked := (LimitBackend.new redis).acquire key rate burst 1 0 .answered
    asked.1 = .granted ∧ (asked.2.acquire key rate burst 1 0 .answered).1 = .granted := by
  have htwo : ((1 : ℕ) : ℚ) + (1 : ℕ) ≤ burst := by
    have hcast : (2 : ℚ) ≤ burst := by exact_mod_cast hburst
    norm_num
    exact hcast
  cases redis with
  | false =>
    have htwice := @TokenBucket.take_twice rate burst 0 (1 : ℕ) (by simp) htwo
    refine ⟨?_, ?_⟩
    · change (MemoryTokenBucketBackend.acquire (fun _ => none) key rate burst 1 0).1 = .granted
      rw [LimitBackend.memory_acquire_fst hrate.ne', Admission.ofBool_eq_granted]
      exact htwice.1
    · change ((MemoryTokenBucketBackend.acquire (fun _ => none) key rate burst 1 0).2.acquire key
        rate burst 1 0).1 = .granted
      rw [LimitBackend.memory_acquire_fst hrate.ne', Admission.ofBool_eq_granted,
        LimitBackend.memory_acquire_snd, Function.update_self]
      exact htwice.2
  | true =>
    have htwice := @TokenBucket.take_twice (rate / 1000) burst
      (RedisTokenBucketBackend.millis 0) (1 : ℕ) (by simp) htwo
    refine ⟨Admission.ofBool_eq_granted.mpr htwice.1,
      Admission.ofBool_eq_granted.mpr ?_⟩
    have hlive := @LimitBackend.live_script key rate burst 0 (fun _ => none) 1 hrate (by omega)
      htwice.1
    change (TokenBucket.take (rate / 1000) burst (1 : ℕ) (RedisTokenBucketBackend.millis 0)
      (((RedisTokenBucketBackend.script (fun _ => none) key rate burst 1 0).2.live key 0).map
        RedisBucket.bucket)).1 = true
    rw [hlive]
    exact htwice.2

/-- Two requests at once, where the backend grants both. -/
theorem granted_twice {site rate : Text} {burst : ℤ} {count : ℚ} {window : ℕ}
    (hrates : r.service.siteRates site = some (rate, burst))
    (hparsed : parseRate rate = some (count, window)) (hwindow : window ≠ 0) :
    let asked (backend : LimitBackend) := backend.acquire (SiteRateLimiterService.key site)
      (count / window) burst 1 r.clock .answered
    (asked r.backend).1 = .granted → (asked (asked r.backend).2).1 = .granted →
    (([.request site 0 .answered, .request site 0 .answered].foldl (SiteRun.step minInterval)
      r).granted) =
        r.granted ++ [(site, r.backend.reads r.clock), (site, r.backend.reads r.clock)] := by
  intro asked hfirst hsecond
  have hone : r.step minInterval (.request site 0 .answered) =
      r.afterAsked site r.clock (asked r.backend) := by
    rw [step_request hrates hparsed hwindow, NNRat.cast_zero, add_zero]
  have htwo : (r.afterAsked site r.clock (asked r.backend)).step minInterval
      (.request site 0 .answered) = (r.afterAsked site r.clock (asked r.backend)).afterAsked site
        r.clock (asked (asked r.backend).2) := by
    have hrates' : (r.afterAsked site r.clock (asked r.backend)).service.siteRates site =
        some (rate, burst) := hrates
    rw [step_request hrates' hparsed hwindow, NNRat.cast_zero, add_zero]
    rfl
  rw [List.foldl_cons, List.foldl_cons, List.foldl_nil, hone, htwo]
  simp [afterAsked, backend, hfirst, hsecond, asked, LimitBackend.reads_acquire]

/-- A burst that a note keeps. -/
theorem not_spaced_of_not_single (hpos : 0 < minInterval) {note : SiteNote}
    (hnote : ¬note.Single minInterval) (site : Text) :
    ¬Spaced minInterval (([.register site note, .request site 0 .answered,
      .request site 0 .answered].foldl (SiteRun.step minInterval) (new redis)).granted) := by
  obtain ⟨rate, burst, hasked, hburst, hslow⟩ : ∃ rate burst,
      note.asked = some (some (rate, burst)) ∧ 1 < burst ∧ SlowEnough minInterval rate := by
    unfold SiteNote.Single at hnote
    split at hnote
    · rename_i rate burst hasked
      rw [not_or, not_le, not_not] at hnote
      exact ⟨rate, burst, hasked, hnote⟩
    · exact absurd trivial hnote
  cases hparsed : parseRate rate with
  | none =>
    rw [SlowEnough, hparsed] at hslow
    exact hslow.elim
  | some parsed =>
    obtain ⟨count, window⟩ := parsed
    -- the rate is slow enough, so that the burst stays with it
    have hrate : SiteRateLimiterService.rateOf minInterval note = some (some (rate, burst)) := by
      have hle := hslow
      rw [SlowEnough, hparsed] at hle
      simp [SiteRateLimiterService.rateOf, hasked, applyMinInterval, hparsed, not_le.mpr hpos,
        not_le.mpr hle.1, hle.2]
    obtain ⟨hwindow, hslow'⟩ := slow_of_slowEnough hpos hslow hparsed (le_refl 1)
    obtain ⟨hfirst, hsecond⟩ := @acquire_twice redis (SiteRateLimiterService.key site)
      (count / window) burst hslow'.rate_pos (by omega)
    have hregistered : (new redis).step minInterval (.register site note) =
        { new redis with service := { (new redis).service with
          siteRates := Function.update (fun _ => none) site (some (rate, burst)) } } := by
      simp [step, SiteRateLimiterService.registerSite, hrate, new]
    have hgranted : (([.register site note, .request site 0 .answered,
        .request site 0 .answered].foldl (SiteRun.step minInterval) (new redis)).granted) =
          [(site, (LimitBackend.new redis).reads 0), (site, (LimitBackend.new redis).reads 0)] := by
      have hrates : Function.update (fun _ => none) site (some (rate, burst)) site =
          some (rate, burst) := Function.update_self ..
      rw [List.foldl_cons, hregistered]
      exact granted_twice hrates hparsed hwindow hfirst hsecond
    rw [hgranted]
    intro hspaced
    have hcast : (0 : ℚ) < minInterval := by exact_mod_cast hpos
    have happart := (List.pairwise_pair.mp hspaced) rfl
    dsimp only at happart
    linarith

/-- A note of sixty requests in an hour. -/
def perHour : SiteNote := .fields { rateLimit := .text (of "60/h") }

end SiteRun

end WolfNas
