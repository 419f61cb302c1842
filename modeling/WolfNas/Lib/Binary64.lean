import Mathlib.Algebra.Order.Ring.Rat
import Mathlib.Order.WithBot
import Mathlib.Data.Int.Log
import Mathlib.Data.Rat.Floor
import Mathlib.Tactic.Linarith
import Mathlib.Tactic.Ring

/-!
# Floating-point numbers

Numbers with two infinities and a value that is none, which compares with nothing; and among
them the finite numbers of 53 binary digits, as rational numbers.  Rounding takes the nearest of
those, and of two the even one.  The two zeros are one number here.

## Main definitions

* `FloatNumber` — a number, an infinity, or none; finite numbers are exact.
* `FloatNumber.lt`, `FloatNumber.le` — the comparisons.
* `FloatNumber.scale` — a number in a smaller unit.
* `roundEven` — the nearest integer, and of two the even one.
* `Binary64.nearest` — the nearest number of 53 binary digits.
* `Finite64`, `Binary64` — the finite numbers; these with the infinities and what is no number.
* `Binary64.ofRat` — rounding to such a number.

## Main results

* `FloatNumber.le_of_lt_eq_false`, `FloatNumber.lt_of_le_eq_false` — of two numbers, where one
  comparison fails the other one holds.
* `Binary64.nearest_eq_self` — what has 53 binary digits is not rounded.
* `Binary64.nearest_nearest` — what is rounded has 53 binary digits.
-/

/-- A floating-point number; the least and the greatest are the infinities, and none is NaN. -/
abbrev FloatNumber := Option (WithBot (WithTop ℚ))

namespace FloatNumber

/-- A finite number. -/
def finite (x : ℚ) : FloatNumber := some ((x : WithTop ℚ) : WithBot (WithTop ℚ))

/-- An infinity. -/
def infinite (negative : Bool) : FloatNumber := some (if negative then ⊥ else ((⊤ : WithTop ℚ) : _))

/-- `x < y`. -/
def lt : FloatNumber → FloatNumber → Bool
  | some x, some y => x < y
  | _, _ => false

/-- `x <= y`. -/
def le : FloatNumber → FloatNumber → Bool
  | some x, some y => x ≤ y
  | _, _ => false

/-- `x * n`. -/
def scale (n : ℕ) (x : FloatNumber) : FloatNumber := x.map (WithBot.map (WithTop.map (· * (n : ℚ))))

variable {x y : FloatNumber}

theorem lt_eq_false_of_le (h : x.le y = true) : y.lt x = false := by
  cases x with
  | none => simp [le] at h
  | some x =>
    cases y with
    | none => rfl
    | some y => simpa [lt, le] using h

theorem le_eq_false_of_lt (h : x.lt y = true) : y.le x = false := by
  cases x with
  | none => simp [lt] at h
  | some x =>
    cases y with
    | none => rfl
    | some y => simpa [lt, le] using h

/-- Of two numbers, the one that is not less is the greater or equal one. -/
theorem le_of_lt_eq_false (h : x.lt y = false) (hx : x ≠ none) (hy : y ≠ none) : y.le x = true := by
  obtain ⟨x, rfl⟩ := Option.ne_none_iff_exists'.mp hx
  obtain ⟨y, rfl⟩ := Option.ne_none_iff_exists'.mp hy
  simpa [lt, le] using h

theorem lt_of_le_eq_false (h : x.le y = false) (hx : x ≠ none) (hy : y ≠ none) : y.lt x = true := by
  obtain ⟨x, rfl⟩ := Option.ne_none_iff_exists'.mp hx
  obtain ⟨y, rfl⟩ := Option.ne_none_iff_exists'.mp hy
  simpa [lt, le] using h

example : (scale 1024 (finite 2)).lt (infinite false) = true := by decide +kernel

end FloatNumber

/-! ## Numbers of 53 binary digits -/

/-- The nearest integer, and of two the even one. -/
def roundEven (x : ℚ) : ℤ :=
  let below := ⌊x⌋
  if x - below < 1 / 2 then below
  else if 1 / 2 < x - below then below + 1
  else if Even below then below
  else below + 1

@[simp] theorem roundEven_intCast (n : ℤ) : roundEven n = n := by simp [roundEven]

/-- An integer is off by one half at most. -/
theorem abs_roundEven_sub_le (x : ℚ) : |(roundEven x : ℚ) - x| ≤ 1 / 2 := by
  have hlow := Int.floor_le x
  have hhigh := Int.lt_floor_add_one x
  rw [abs_le]
  unfold roundEven
  dsimp only
  split_ifs with hlt hgt heven
  · constructor <;> linarith
  · push_cast
    constructor <;> linarith
  · constructor <;> linarith
  · push_cast
    constructor <;> linarith

/-- A number that is not larger than an integer is not rounded past it. -/
theorem abs_roundEven_le {x : ℚ} {n : ℤ} (h : |x| ≤ n) : |roundEven x| ≤ n := by
  have hround := abs_le.mp (abs_roundEven_sub_le x)
  have hx := abs_le.mp h
  have hlow : (-n : ℚ) - 1 < roundEven x := by linarith
  have hhigh : (roundEven x : ℚ) < n + 1 := by linarith
  have hlow' : -n - 1 < roundEven x := by exact_mod_cast hlow
  have hhigh' : roundEven x < n + 1 := by exact_mod_cast hhigh
  exact abs_le.mpr ⟨by omega, by omega⟩

namespace Binary64

/-- The exponent of the last binary digit. -/
def exponent (x : ℚ) : ℤ := max (-1074) (Int.log 2 |x| - 52)

/-- The nearest number of 53 binary digits, and of two the even one. -/
def nearest (x : ℚ) : ℚ := roundEven (x / 2 ^ exponent x) * 2 ^ exponent x

/-- A number is less than 53 binary digits can write. -/
theorem abs_lt (x : ℚ) : |x| < 2 ^ (53 + exponent x) := by
  have hlog := Int.lt_zpow_succ_log_self (b := 2) (by decide) |x|
  refine lt_of_lt_of_le hlog ?_
  have hle : Int.log 2 |x| + 1 ≤ 53 + exponent x := by
    have := le_max_right (-1074) (Int.log 2 |x| - 52)
    unfold exponent
    omega
  exact_mod_cast zpow_le_zpow_right₀ (by norm_num : (1 : ℚ) ≤ 2) hle

/-- A number that ends at its last binary digit is not rounded. -/
theorem nearest_of_dvd {x : ℚ} {m : ℤ} (h : x = m * 2 ^ exponent x) : nearest x = x := by
  have hpos : (2 : ℚ) ^ exponent x ≠ 0 := zpow_ne_zero _ two_ne_zero
  have hquot : x / 2 ^ exponent x = m := by
    rw [div_eq_iff hpos]
    exact h
  rw [nearest, hquot, roundEven_intCast]
  exact h.symm

/-- The last digit of a number of 53 binary digits that is not kept is the last but one of a power
of two. -/
theorem exponent_cases {m e : ℤ} (hzero : m ≠ 0) (hm : |m| ≤ 2 ^ 53) (he : -1074 ≤ e) :
    exponent (m * 2 ^ e) ≤ e ∨ |m| = 2 ^ 53 ∧ exponent (m * 2 ^ e) = e + 1 := by
  have htwo : (0 : ℚ) < 2 ^ e := zpow_pos two_pos e
  have habs : |(m : ℚ) * 2 ^ e| = |m| * 2 ^ e := by
    rw [abs_mul, abs_of_pos htwo, Int.cast_abs]
  have hpos : 0 < |(m : ℚ) * 2 ^ e| := abs_pos.mpr (mul_ne_zero (by exact_mod_cast hzero) htwo.ne')
  by_cases hle : exponent (m * 2 ^ e) ≤ e
  · exact .inl hle
  · right
    have hlog : e + 53 ≤ Int.log 2 |(m : ℚ) * 2 ^ e| := by
      unfold exponent at hle
      omega
    have hbelow : (2 : ℚ) ^ (e + 53) ≤ |m| * 2 ^ e := by
      rw [← habs]
      exact_mod_cast (Int.zpow_le_iff_le_log (b := 2) (by decide) hpos).mpr hlog
    have hdigits : (2 : ℚ) ^ (53 : ℤ) ≤ |m| := by
      rw [add_comm, zpow_add₀ two_ne_zero] at hbelow
      exact le_of_mul_le_mul_right hbelow htwo
    have hm' : |m| = 2 ^ 53 := by
      refine le_antisymm hm ?_
      exact_mod_cast hdigits
    refine ⟨hm', ?_⟩
    have hpower : |(m : ℚ) * 2 ^ e| = (2 : ℕ) ^ (53 + e) := by
      rw [habs, hm', Nat.cast_ofNat, zpow_add₀ two_ne_zero]
      norm_num
    rw [exponent, hpower, Int.log_zpow (by decide)]
    omega

/-- **What has 53 binary digits** is not rounded. -/
theorem nearest_eq_self {m e : ℤ} (hm : |m| ≤ 2 ^ 53) (he : -1074 ≤ e) :
    nearest (m * 2 ^ e) = m * 2 ^ e := by
  by_cases hzero : m = 0
  · subst hzero
    refine nearest_of_dvd (m := 0) ?_
    simp
  · rcases exponent_cases hzero hm he with hle | ⟨hpower, hexp⟩
    · obtain ⟨k, hk⟩ := Int.eq_ofNat_of_zero_le (Int.sub_nonneg_of_le hle)
      refine nearest_of_dvd (m := m * 2 ^ k) ?_
      have hsplit : e = k + exponent (m * 2 ^ e) := by omega
      have hdigits : (2 : ℚ) ^ e = 2 ^ k * 2 ^ exponent (m * 2 ^ e) := by
        rw [← zpow_natCast, ← zpow_add₀ two_ne_zero]
        exact congrArg _ hsplit
      push_cast
      rw [mul_assoc, ← hdigits]
    · have heven : (2 : ℤ) ∣ |m| := hpower ▸ dvd_pow_self 2 (by decide)
      obtain ⟨n, rfl⟩ := (dvd_abs _ _).mp heven
      refine nearest_of_dvd (m := n) ?_
      rw [hexp, zpow_add₀ two_ne_zero]
      push_cast
      ring

/-- **What is rounded** has 53 binary digits. -/
theorem nearest_nearest (x : ℚ) : nearest (nearest x) = nearest x := by
  refine nearest_eq_self ?_ (le_max_left _ _)
  refine abs_roundEven_le ?_
  have htwo : (0 : ℚ) < 2 ^ exponent x := zpow_pos two_pos _
  rw [abs_div, abs_of_pos htwo, div_le_iff₀ htwo]
  have hlt := abs_lt x
  rw [zpow_add₀ two_ne_zero] at hlt
  exact_mod_cast hlt.le

end Binary64

/-- A finite number of 53 binary digits. -/
structure Finite64 where
  /-- The number. -/
  val : ℚ
  /-- It is not rounded. -/
  exact : Binary64.nearest val = val
  /-- It is not too large. -/
  bounded : |val| < 2 ^ 1024
  deriving DecidableEq

/-- A number of 53 binary digits, an infinity, or none. -/
inductive Binary64
  | finite (x : Finite64)
  | infinite (negative : Bool)
  | nan
  deriving DecidableEq

namespace Binary64

/-- The number that a rational number is rounded to. -/
def ofRat (x : ℚ) : Binary64 :=
  if h : |nearest x| < 2 ^ 1024 then .finite ⟨nearest x, nearest_nearest x, h⟩
  else .infinite (x < 0)

/-- A finite number is not rounded. -/
theorem ofRat_val (x : Finite64) : ofRat x.val = .finite x := by
  obtain ⟨x, hexact, hbounded⟩ := x
  simp only [ofRat, hexact, dif_pos hbounded]

end Binary64
