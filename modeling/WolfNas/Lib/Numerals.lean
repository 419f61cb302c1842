import WolfNas.Lib.Binary64
import WolfNas.Lib.Text
import Mathlib.Tactic.FieldSimp

/-!
# Numbers that are written and read

An integer is written with its digits and read as itself.  A number that is written with a fixed
number of places is the nearest one that has so many.

## Main definitions

* `Text.fixed` — a number with a fixed number of places.
* `roundTo` — the nearest number with so many places, and of two the even one.
* `Binary64.toPlaces` — the floating-point number nearest to it.

## Main results

* `Text.parseInt_ofInt` — integers.
* `div_add_mod_div` — the digits in front of a point and behind it.
-/

namespace Text

variable {s : Text} {n : ℕ}

/-! ## Digits -/

theorem parseDigits_of_digits (h : ∀ c ∈ s, c.isDigit = true) (n : ℕ) :
    parseDigits s (some n) true =
      some (s.foldl (fun n c => 10 * n + (c.toNat - '0'.toNat)) n) := by
  induction s generalizing n with
  | nil => rfl
  | cons c s ih =>
    have hc := h c List.mem_cons_self
    rw [parseDigits, if_pos hc, ih fun d hd => h d (List.mem_cons_of_mem c hd)]
    simp only [Option.getD_some, List.foldl_cons, Nat.mul_comm]

/-- A text of digits is read as the number. -/
theorem parseDigits_eq (h : ∀ c ∈ s, c.isDigit = true) (hne : s ≠ []) :
    parseDigits s none false = some (toNat s) := by
  obtain ⟨c, s, rfl⟩ := List.exists_cons_of_ne_nil hne
  have hc := h c List.mem_cons_self
  rw [parseDigits, if_pos hc, parseDigits_of_digits fun d hd => h d (List.mem_cons_of_mem c hd)]
  simp [toNat]

theorem parseDigits_ofNat (n : ℕ) : parseDigits (ofNat n) none false = some n := by
  rw [parseDigits_eq (fun _ hc => isDigit_of_mem_ofNat hc) (ofNat_ne_nil n), toNat_ofNat]

/-- What begins with a digit has no sign. -/
theorem head_ofNat (n : ℕ) : ∃ c s, ofNat n = c :: s ∧ c.isDigit = true := by
  obtain ⟨c, s, hs⟩ := List.exists_cons_of_ne_nil (ofNat_ne_nil n)
  exact ⟨c, s, hs, isDigit_of_mem_ofNat (hs ▸ List.mem_cons_self)⟩

/-- **An integer** is read as it is written. -/
theorem parseInt_ofInt (n : ℤ) : parseInt (ofInt n) = some n := by
  rw [parseInt, strip_ofInt]
  cases n with
  | ofNat n =>
    obtain ⟨c, s, hs, hc⟩ := head_ofNat n
    have hdigits := parseDigits_ofNat n
    rw [ofInt, hs] at *
    split
    · rename_i heq
      rw [(List.cons.inj heq).1] at hc
      exact absurd hc (by decide)
    · rename_i heq
      rw [(List.cons.inj heq).1] at hc
      exact absurd hc (by decide)
    · simp [hdigits]
  | negSucc n =>
    simp only [ofInt, parseDigits_ofNat, Int.negSucc_eq]
    rfl

/-- Digits in front of a point and behind it. -/
def pointed (places n : ℕ) : Text :=
  ofNat (n / 10 ^ places) ++ if places = 0 then [] else '.' :: padTo places (n % 10 ^ places)

/-- `f"{x:.{places}f}"`. -/
def fixed (places : ℕ) (x : ℚ) : Text :=
  let digits := pointed places (roundEven (|x| * 10 ^ places)).toNat
  if x < 0 then '-' :: digits else digits

end Text

/-- The nearest number with so many places, and of two the one whose last place is even. -/
def roundTo (places : ℕ) (x : ℚ) : ℚ :=
  let y : ℚ := roundEven (|x| * 10 ^ places) / 10 ^ places
  if x < 0 then -y else y

/-- The number nearest to the one with so many places. -/
def Binary64.toPlaces (places : ℕ) : Binary64 → Binary64
  | .finite x => .ofRat (roundTo places x.val)
  | .infinite negative => .infinite negative
  | .nan => .nan

theorem roundEven_nonneg {x : ℚ} (h : 0 ≤ x) : 0 ≤ roundEven x := by
  have hfloor : 0 ≤ ⌊x⌋ := Int.floor_nonneg.mpr h
  unfold roundEven
  dsimp only
  split_ifs
  · exact hfloor
  · omega
  · exact hfloor
  · omega

/-- The digits in front of the point and behind it make the number. -/
theorem div_add_mod_div (n places : ℕ) :
    ((n / 10 ^ places : ℕ) : ℚ) + (n % 10 ^ places : ℕ) / 10 ^ places = n / 10 ^ places := by
  have hpos : (10 : ℚ) ^ places ≠ 0 := by positivity
  have hsum : ((n / 10 ^ places : ℕ) : ℚ) * 10 ^ places + (n % 10 ^ places : ℕ) = n := by
    exact_mod_cast Nat.div_add_mod' n (10 ^ places)
  rw [eq_div_iff hpos, add_mul, div_mul_cancel₀ _ hpos, hsum]
