import Mathlib.Algebra.Order.BigOperators.Group.List
import Mathlib.Algebra.Order.Field.Rat
import Mathlib.Tactic.Linarith
import Mathlib.Tactic.Ring

/-!
# Token buckets

A bucket fills at a rate up to its burst, and a request takes tokens out of it.  Where the burst
is one token, two requests that are granted are at least as far apart as one token needs to come.
A bucket that is left alone fills up, and what requests take out of it in an interval is at most
the burst and what comes in meanwhile.

## Main definitions

* `TokenBucket` — the tokens, and when they were counted.
* `TokenBucket.filled` — the tokens at a time.
* `TokenBucket.take` — one request at a time.
* `TokenBucket.SpentAt` — what came in since a request is all that is in the bucket.
* `TokenBucket.granted` — the requests that are granted, one after another.
* `TokenBucket.taken` — the tokens that requests of an interval ask for.

## Main results

* `TokenBucket.late_of_take` — who is granted a token of such a bucket is late enough.
* `TokenBucket.spentAt_take` — a request that takes all that fits in leaves such a bucket.
* `TokenBucket.SpentAt.take` — and further requests leave it so.
* `TokenBucket.take_twice` — where the tokens of two requests fit in, both are granted at once.
* `TokenBucket.filled_of_late` — a bucket is full in the end.
* `TokenBucket.taken_granted_le` — what is granted in an interval.
-/

/-- The tokens in a bucket, and when they were counted. -/
structure TokenBucket where
  tokens : ℚ
  counted : ℚ
  deriving DecidableEq, Repr

namespace TokenBucket

/-- The tokens at a time.  A bucket that is not there is full. -/
def filled (rate burst now : ℚ) (bucket : Option TokenBucket) : ℚ :=
  let b := bucket.getD ⟨burst, now⟩
  min burst (b.tokens + (now - b.counted) * rate)

/-- A request for some tokens, at a time: whether it is granted, and the bucket after it. -/
def take (rate burst tokens now : ℚ) (bucket : Option TokenBucket) : Bool × TokenBucket :=
  let available := filled rate burst now bucket
  if tokens ≤ available then (true, ⟨available - tokens, now⟩) else (false, ⟨available, now⟩)

/-- Since `time` there came in what is in the bucket, or more: one token in each `interval`. -/
structure SpentAt (interval time : ℚ) (b : TokenBucket) : Prop where
  le : time ≤ b.counted
  tokens_le : b.tokens * interval ≤ b.counted - time

variable {rate burst interval time now : ℚ} {b : TokenBucket} {bucket : Option TokenBucket}

theorem counted_take {tokens : ℚ} : (take rate burst tokens now bucket).2.counted = now := by
  simp only [take]
  split_ifs <;> rfl

theorem filled_le_burst : filled rate burst now bucket ≤ burst := min_le_left _ _

theorem filled_some_le : filled rate burst now (some b) ≤ b.tokens + (now - b.counted) * rate :=
  min_le_right _ _

theorem take_eq_true_iff {tokens : ℚ} :
    (take rate burst tokens now bucket).1 = true ↔ tokens ≤ filled rate burst now bucket := by
  simp only [take]
  split_ifs with h
  · simp [h]
  · simp [h]

theorem take_of_le {tokens : ℚ} (h : tokens ≤ filled rate burst now bucket) :
    take rate burst tokens now bucket = (true, ⟨filled rate burst now bucket - tokens, now⟩) :=
  if_pos h

theorem tokens_take_le {tokens : ℚ} (htokens : 0 ≤ tokens) :
    (take rate burst tokens now bucket).2.tokens ≤ filled rate burst now bucket := by
  simp only [take]
  split_ifs
  · linarith
  · exact le_rfl

/-- Tokens that are granted fit into the bucket. -/
theorem le_burst_of_take {tokens : ℚ} (hgranted : (take rate burst tokens now bucket).1 = true) :
    tokens ≤ burst := (take_eq_true_iff.mp hgranted).trans filled_le_burst

/-- What is in the bucket when it is filled up. -/
theorem SpentAt.filled_le (h : b.SpentAt interval time) (hrate : rate * interval ≤ 1)
    (hnow : b.counted ≤ now) :
    (b.tokens + (now - b.counted) * rate) * interval ≤ now - time := by
  have hcame : (now - b.counted) * (rate * interval) ≤ (now - b.counted) * 1 :=
    mul_le_mul_of_nonneg_left hrate (sub_nonneg.mpr hnow)
  have htokens := h.tokens_le
  calc (b.tokens + (now - b.counted) * rate) * interval
      = b.tokens * interval + (now - b.counted) * (rate * interval) := by ring
    _ ≤ (b.counted - time) + (now - b.counted) * 1 := add_le_add htokens hcame
    _ = now - time := by ring

/-- **Who is granted a token** is an interval late. -/
theorem late_of_take (h : b.SpentAt interval time) (hinterval : 0 < interval)
    (hrate : rate * interval ≤ 1) (hnow : b.counted ≤ now) {tokens : ℚ} (htokens : 1 ≤ tokens)
    (hgranted : (take rate burst tokens now (some b)).1 = true) : time + interval ≤ now := by
  have hfilled := h.filled_le hrate hnow
  have henough : 1 ≤ b.tokens + (now - b.counted) * rate :=
    (htokens.trans (take_eq_true_iff.mp hgranted)).trans filled_some_le
  have hmul := mul_le_mul_of_nonneg_right henough hinterval.le
  linarith

/-- Who takes all the tokens that fit in. -/
theorem spentAt_take (hinterval : 0 < interval) {tokens : ℚ} (hburst : burst ≤ tokens)
    (hgranted : (take rate burst tokens now bucket).1 = true) :
    (take rate burst tokens now bucket).2.SpentAt interval now := by
  refine ⟨counted_take.ge, ?_⟩
  rw [take_of_le (take_eq_true_iff.mp hgranted)]
  simp only [sub_self]
  have hempty : filled rate burst now bucket - tokens ≤ 0 := by
    linarith [@filled_le_burst rate burst now bucket]
  exact mul_nonpos_of_nonpos_of_nonneg hempty hinterval.le

/-- Whoever asks later. -/
theorem SpentAt.take (h : b.SpentAt interval time) (hinterval : 0 < interval)
    (hrate : rate * interval ≤ 1) (hnow : b.counted ≤ now) {tokens : ℚ} (htokens : 0 ≤ tokens) :
    (take rate burst tokens now (some b)).2.SpentAt interval time := by
  refine ⟨by rw [counted_take]; exact h.le.trans hnow, ?_⟩
  rw [counted_take]
  have hleft := (@tokens_take_le rate burst now (some b) tokens htokens).trans filled_some_le
  have hmul := mul_le_mul_of_nonneg_right hleft hinterval.le
  exact hmul.trans (h.filled_le hrate hnow)

/-- Two requests at one time are granted by a new bucket that the tokens of both fit in. -/
theorem take_twice {tokens : ℚ} (htokens : 0 ≤ tokens) (hburst : tokens + tokens ≤ burst) :
    (TokenBucket.take rate burst tokens now none).1 = true ∧
      (TokenBucket.take rate burst tokens now
        (some (TokenBucket.take rate burst tokens now none).2)).1 = true := by
  have hfirst : tokens ≤ burst := by linarith
  have hsecond : tokens ≤ burst - tokens := by linarith
  simp [TokenBucket.take, filled, hfirst, hsecond]

/-! ## A bucket that is left alone -/

theorem filled_none (now : ℚ) : filled rate burst now none = burst := by
  simp [filled]

/-- When the missing tokens have come. -/
theorem filled_of_late {now : ℚ} (hrate : 0 < rate)
    (h : b.counted + (burst - b.tokens) / rate ≤ now) : filled rate burst now (some b) = burst := by
  have hcame : burst - b.tokens ≤ (now - b.counted) * rate := by
    rw [← div_le_iff₀ hrate]
    linarith
  exact min_eq_left (by simpa using by linarith : burst ≤ b.tokens + (now - b.counted) * rate)

/-! ## Requests -/

/-- The requests that are granted; a request is the tokens it asks for, and its time. -/
def granted (rate burst : ℚ) : Option TokenBucket → List (ℚ × ℚ) → List (ℚ × ℚ)
  | _, [] => []
  | bucket, r :: l =>
    let asked := take rate burst r.1 r.2 bucket
    if asked.1 then r :: granted rate burst (some asked.2) l
    else granted rate burst (some asked.2) l

/-- The tokens that the requests of an interval ask for. -/
def taken (start stop : ℚ) (l : List (ℚ × ℚ)) : ℚ :=
  ((l.filter fun r => start ≤ r.2 ∧ r.2 ≤ stop).map Prod.fst).sum

@[simp] theorem taken_nil (start stop : ℚ) : taken start stop [] = 0 := by simp [taken]

theorem taken_cons (start stop : ℚ) (r : ℚ × ℚ) (l : List (ℚ × ℚ)) :
    taken start stop (r :: l) =
      (if start ≤ r.2 ∧ r.2 ≤ stop then r.1 else 0) + taken start stop l := by
  by_cases h : start ≤ r.2 ∧ r.2 ≤ stop
  · simp [taken, h]
  · simp [taken, h]

theorem granted_sublist (bucket : Option TokenBucket) (l : List (ℚ × ℚ)) :
    (granted rate burst bucket l).Sublist l := by
  induction l generalizing bucket with
  | nil => exact .slnil
  | cons r l ih =>
    rw [granted]
    split_ifs
    · exact (ih _).cons_cons r
    · exact (ih _).cons r

theorem granted_cons_of_le {r : ℚ × ℚ} {l : List (ℚ × ℚ)}
    (h : r.1 ≤ filled rate burst r.2 bucket) :
    granted rate burst bucket (r :: l) =
      r :: granted rate burst (some ⟨filled rate burst r.2 bucket - r.1, r.2⟩) l := by
  simp [granted, take_of_le h]

theorem granted_cons_of_not_le {r : ℚ × ℚ} {l : List (ℚ × ℚ)}
    (h : ¬r.1 ≤ filled rate burst r.2 bucket) :
    granted rate burst bucket (r :: l) =
      granted rate burst (some ⟨filled rate burst r.2 bucket, r.2⟩) l := by
  have hrefused : take rate burst r.1 r.2 bucket = (false, ⟨filled rate burst r.2 bucket, r.2⟩) :=
    if_neg h
  simp [granted, hrefused]

/-- Requests after the interval take nothing in it. -/
theorem taken_granted_of_late {start stop : ℚ} {r : ℚ × ℚ} {l : List (ℚ × ℚ)}
    (hfirst : ∀ r' ∈ l, r.2 ≤ r'.2) (hlate : stop < r.2) :
    taken start stop (granted rate burst bucket (r :: l)) = 0 := by
  have hnone : ((granted rate burst bucket (r :: l)).filter fun r' =>
      start ≤ r'.2 ∧ r'.2 ≤ stop) = [] := by
    rw [List.filter_eq_nil_iff]
    intro r' hr'
    have hafter : stop < r'.2 := by
      rcases List.mem_cons.mp ((granted_sublist _ _).subset hr') with rfl | hr'
      · exact hlate
      · exact hlate.trans_le (hfirst r' hr')
    simp [hafter]
  rw [taken, hnone, List.map_nil, List.sum_nil]

/-- What requests take out of a bucket until a time: what is in it, and what comes in. -/
theorem taken_granted_le_tokens {start stop : ℚ} {l : List (ℚ × ℚ)} (hrate : 0 ≤ rate)
    (hnonneg : ∀ r ∈ l, 0 ≤ r.1) (hsorted : l.Pairwise fun r r' => r.2 ≤ r'.2)
    (hlater : ∀ r ∈ l, b.counted ≤ r.2) (hstop : b.counted ≤ stop) :
    taken start stop (granted rate burst (some b) l) ≤
      max 0 b.tokens + (stop - b.counted) * rate := by
  have hcomes : 0 ≤ (stop - b.counted) * rate := mul_nonneg (sub_nonneg.mpr hstop) hrate
  induction l generalizing b with
  | nil =>
    rw [granted, taken_nil]
    exact add_nonneg (le_max_left 0 _) hcomes
  | cons r l ih =>
    obtain ⟨hfirst, hsorted⟩ := List.pairwise_cons.mp hsorted
    have htokens := hnonneg r List.mem_cons_self
    have hnow := hlater r List.mem_cons_self
    by_cases hlate : stop < r.2
    · -- this request and all that follow come after the interval
      rw [taken_granted_of_late hfirst hlate]
      exact add_nonneg (le_max_left 0 _) hcomes
    · have hin : r.2 ≤ stop := not_lt.mp hlate
      have hrest : ∀ b' : TokenBucket, b'.counted = r.2 →
          taken start stop (granted rate burst (some b') l) ≤
            max 0 b'.tokens + (stop - r.2) * rate := by
        intro b' hb'
        have hle := ih (b := b') (fun r' hr' => hnonneg r' (List.mem_cons_of_mem r hr')) hsorted
          (fun r' hr' => hb' ▸ hfirst r' hr') (hb' ▸ hin)
          (mul_nonneg (sub_nonneg.mpr (hb' ▸ hin)) hrate)
        rwa [hb'] at hle
      have havailable : filled rate burst r.2 (some b) ≤ b.tokens + (r.2 - b.counted) * rate :=
        filled_some_le
      have hgain : 0 ≤ (r.2 - b.counted) * rate := mul_nonneg (sub_nonneg.mpr hnow) hrate
      have hsplit : (stop - b.counted) * rate = (r.2 - b.counted) * rate + (stop - r.2) * rate := by
        ring
      have hmax : b.tokens ≤ max 0 b.tokens := le_max_right 0 _
      by_cases henough : r.1 ≤ filled rate burst r.2 (some b)
      · rw [granted_cons_of_le henough, taken_cons]
        have hle := hrest ⟨filled rate burst r.2 (some b) - r.1, r.2⟩ rfl
        rw [max_eq_right (sub_nonneg.mpr henough)] at hle
        split_ifs
        · linarith
        · linarith
      · rw [granted_cons_of_not_le henough]
        have hle := hrest ⟨filled rate burst r.2 (some b), r.2⟩ rfl
        have hfilled : max 0 (filled rate burst r.2 (some b)) ≤
            max 0 b.tokens + (r.2 - b.counted) * rate := by
          refine max_le ?_ (havailable.trans (by linarith))
          exact add_nonneg (le_max_left 0 _) hgain
        linarith

/-- **What is granted in an interval** is at most the burst and what comes in meanwhile, whatever
was in the bucket before. -/
theorem taken_granted_le {start stop : ℚ} {l : List (ℚ × ℚ)} (hrate : 0 ≤ rate) (hburst : 0 ≤ burst)
    (hnonneg : ∀ r ∈ l, 0 ≤ r.1) (hsorted : l.Pairwise fun r r' => r.2 ≤ r'.2)
    (hstop : start ≤ stop) :
    taken start stop (granted rate burst bucket l) ≤ burst + (stop - start) * rate := by
  have hcomes : 0 ≤ (stop - start) * rate := mul_nonneg (sub_nonneg.mpr hstop) hrate
  induction l generalizing bucket with
  | nil =>
    rw [granted, taken_nil]
    exact add_nonneg hburst hcomes
  | cons r l ih =>
    obtain ⟨hfirst, hsorted⟩ := List.pairwise_cons.mp hsorted
    have htail : ∀ r' ∈ l, 0 ≤ r'.1 := fun r' hr' => hnonneg r' (List.mem_cons_of_mem r hr')
    have htokens := hnonneg r List.mem_cons_self
    by_cases hearly : r.2 < start
    · -- this request comes before the interval
      have hout : ¬(start ≤ r.2 ∧ r.2 ≤ stop) := fun hin => absurd hin.1 (not_le.mpr hearly)
      rw [granted]
      split_ifs
      · rw [taken_cons, if_neg hout, zero_add]
        exact ih htail hsorted
      · exact ih htail hsorted
    by_cases hlate : stop < r.2
    · rw [taken_granted_of_late hfirst hlate]
      exact add_nonneg hburst hcomes
    · -- from the first request of the interval on, the bucket holds the burst at most
      have hstart : start ≤ r.2 := not_lt.mp hearly
      have hin : r.2 ≤ stop := not_lt.mp hlate
      have hfull : filled rate burst r.2 bucket ≤ burst := filled_le_burst
      have hmeanwhile : (stop - r.2) * rate ≤ (stop - start) * rate :=
        mul_le_mul_of_nonneg_right (by linarith) hrate
      by_cases henough : r.1 ≤ filled rate burst r.2 bucket
      · rw [granted_cons_of_le henough, taken_cons, if_pos ⟨hstart, hin⟩]
        have hle := @taken_granted_le_tokens rate burst ⟨filled rate burst r.2 bucket - r.1, r.2⟩
          start stop l hrate htail hsorted hfirst hin
        rw [max_eq_right (sub_nonneg.mpr henough)] at hle
        linarith
      · rw [granted_cons_of_not_le henough]
        have hle := @taken_granted_le_tokens rate burst ⟨filled rate burst r.2 bucket, r.2⟩
          start stop l hrate htail hsorted hfirst hin
        have hmax : max 0 (filled rate burst r.2 bucket) ≤ burst := max_le hburst hfull
        linarith

end TokenBucket
