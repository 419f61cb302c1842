import WolfNas.Lib.Text

/-!
# The order of padded numbers

Texts are compared character by character, so decimal numbers of one width stand in the order of
the numbers.  A number below zero has its sign behind the padding: it stands in front of all that
are not below zero, and of two of them the one with more digits stands first, but of two with as
many digits the smaller number does not.

## Main definitions

* `Text.Fits` — the text of the number is not wider than the padding.
* `Text.InOrder` — the padded texts of two numbers stand in the order of the numbers.
* `Text.joined` — padded numbers one behind the other.
* `Text.FirstInOrder` — so do those where two lists of numbers differ first.

## Main results

* `Text.lt_iff_toNat` — texts of digits.
* `Text.rjust_lt`, `Text.rjust_gt` — padded numbers.
* `Text.joined_lt`, `Text.joined_gt` — padded numbers one behind the other.
-/

namespace Text

variable {s t u v : Text} {c d : Char} {w n m : ℕ} {x y : ℤ}

/-! ## Texts of one length -/

theorem append_lt_append_iff (h : s.length = t.length) :
    (s ++ u : Text) < t ++ v ↔ s < t ∨ s = t ∧ u < v := by
  induction s generalizing t with
  | nil =>
    obtain rfl := List.eq_nil_of_length_eq_zero h.symm
    simp
  | cons c s ih =>
    cases t with
    | nil => simp at h
    | cons d t =>
      have hlen : s.length = t.length := by simpa using h
      simp only [List.cons_append, List.cons_lt_cons_iff, ih hlen, List.cons.injEq]
      by_cases hcd : c = d
      · subst hcd
        simp
      · simp [hcd]

theorem toNat_concat (s : Text) (c : Char) :
    toNat (s ++ [c]) = 10 * toNat s + (c.toNat - '0'.toNat) := by
  simp [toNat, List.foldl_append]

theorem digit_bounds (hc : c.isDigit = true) : 48 ≤ c.toNat ∧ c.toNat ≤ 57 := by
  simp only [Char.isDigit, Bool.and_eq_true, decide_eq_true_eq] at hc
  exact ⟨UInt32.le_iff_toNat_le.mp hc.1, UInt32.le_iff_toNat_le.mp hc.2⟩

theorem char_lt_iff : c < d ↔ c.toNat < d.toNat := Iff.rfl

theorem char_eq_iff : c = d ↔ c.toNat = d.toNat := by
  constructor
  · rintro rfl
    rfl
  · intro h
    exact Char.ext (UInt32.toNat_inj.mp h)

/-- Texts of as many digits stand in the order of the numbers. -/
theorem lt_iff_toNat (hlen : s.length = t.length) (hs : ∀ c ∈ s, c.isDigit = true)
    (ht : ∀ c ∈ t, c.isDigit = true) :
    (s < t ↔ toNat s < toNat t) ∧ (s = t ↔ toNat s = toNat t) := by
  induction s using List.reverseRecOn generalizing t with
  | nil =>
    obtain rfl := List.eq_nil_of_length_eq_zero hlen.symm
    simp
  | append_singleton s c ih =>
    rcases List.eq_nil_or_concat' t with rfl | ⟨t, d, rfl⟩
    · simp at hlen
    · have hlen' : s.length = t.length := by simpa using hlen
      obtain ⟨hlt, heq⟩ := ih hlen' (fun c hc => hs c (List.mem_append_left _ hc))
        (fun c hc => ht c (List.mem_append_left _ hc))
      have hc := digit_bounds (hs c (by simp))
      have hd := digit_bounds (ht d (by simp))
      have hzero : '0'.toNat = 48 := rfl
      rw [append_lt_append_iff hlen', toNat_concat, toNat_concat, hlt, heq, hzero]
      constructor
      · simp only [List.cons_lt_cons_iff, char_lt_iff, List.lt_irrefl, and_false, or_false]
        omega
      · have hinj : s ++ [c] = t ++ [d] ↔ s = t ∧ [c] = [d] := by
          constructor
          · exact fun h => List.append_inj h hlen'
          · rintro ⟨rfl, h⟩
            rw [h]
        rw [hinj, heq]
        simp only [List.cons.injEq, and_true, char_eq_iff]
        omega

/-! ## Padded numbers -/

/-- The text of the number is not wider than the padding. -/
def Fits (w : ℕ) (x : ℤ) : Prop := (ofInt x).length ≤ w

instance : Decidable (Fits w x) := inferInstanceAs (Decidable (_ ≤ _))

/-- The padded texts of two numbers stand in the order of the numbers: not both are below zero,
or they have different numbers of digits. -/
def InOrder (x y : ℤ) : Prop := ¬(x < 0 ∧ y < 0 ∧ (ofInt x).length = (ofInt y).length)

instance : Decidable (InOrder x y) := inferInstanceAs (Decidable (¬_))

theorem length_rjust (h : s.length ≤ w) : (rjust w s).length = w := by
  simp [rjust]
  omega

theorem padTo_lt_iff (hn : (ofNat n).length ≤ w) (hm : (ofNat m).length ≤ w) :
    padTo w n < padTo w m ↔ n < m := by
  have hlen : (padTo w n).length = (padTo w m).length := by
    rw [show padTo w n = rjust w (ofNat n) from rfl, show padTo w m = rjust w (ofNat m) from rfl,
      length_rjust hn, length_rjust hm]
  have hlt := (lt_iff_toNat hlen (fun _ hc => isDigit_of_mem_padTo hc)
    (fun _ hc => isDigit_of_mem_padTo hc)).1
  rwa [toNat_padTo, toNat_padTo] at hlt

/-- A sign behind zeros stands in front of digits. -/
theorem sign_lt {k : ℕ} (hk : k < t.length) (ht : ∀ c ∈ t, c.isDigit = true) :
    (List.replicate k '0' ++ '-' :: s : Text) < t := by
  induction k generalizing t with
  | zero =>
    cases t with
    | nil => simp at hk
    | cons d t =>
      have hd := digit_bounds (ht d (by simp))
      have hsign : '-'.toNat = 45 := rfl
      rw [List.replicate_zero, List.nil_append, List.cons_lt_cons_iff, char_lt_iff]
      omega
  | succ k ih =>
    cases t with
    | nil => simp at hk
    | cons d t =>
      have hd := digit_bounds (ht d (by simp))
      have hzero : '0'.toNat = 48 := rfl
      rw [List.replicate_succ, List.cons_append, List.cons_lt_cons_iff]
      by_cases hd0 : '0' = d
      · exact .inr ⟨hd0, ih (by simpa using hk) fun c hc => ht c (List.mem_cons_of_mem _ hc)⟩
      · left
        rw [char_lt_iff]
        rw [char_eq_iff] at hd0
        omega

theorem length_ofNat_mono (h : m ≤ n) : (ofNat m).length ≤ (ofNat n).length := by
  have hpos : 0 < (ofNat n).length := List.length_pos_of_ne_nil (ofNat_ne_nil n)
  have hn : n < 10 ^ (ofNat n).length := (Nat.length_toDigits_le_iff (by decide) hpos).mp le_rfl
  exact (Nat.length_toDigits_le_iff (by decide) hpos).mpr (h.trans_lt hn)

/-- Texts of as many digits, the numbers without padding. -/
theorem ofNat_lt (hlen : (ofNat m).length = (ofNat n).length) (h : m < n) : ofNat m < ofNat n := by
  have hlt := (lt_iff_toNat hlen (fun _ hc => isDigit_of_mem_ofNat hc)
    (fun _ hc => isDigit_of_mem_ofNat hc)).1
  rw [hlt, toNat_ofNat, toNat_ofNat]
  exact h

theorem ofInt_neg (h : x < 0) : ∃ n, x = -(n + 1 : ℕ) ∧ ofInt x = '-' :: ofNat (n + 1) := by
  obtain ⟨n, rfl⟩ := Int.eq_negSucc_of_lt_zero h
  exact ⟨n, Int.negSucc_eq n, rfl⟩

theorem ofInt_nonneg (h : 0 ≤ x) : ∃ n : ℕ, x = n ∧ ofInt x = ofNat n := by
  obtain ⟨n, rfl⟩ := Int.eq_ofNat_of_zero_le h
  exact ⟨n, rfl, rfl⟩

/-- Padded numbers stand in their order, unless both are below zero with as many digits. -/
theorem rjust_lt (hx : Fits w x) (hy : Fits w y) (hxy : x < y) (h : InOrder x y) :
    rjust w (ofInt x) < rjust w (ofInt y) := by
  by_cases hx0 : x < 0
  · obtain ⟨n, rfl, hn⟩ := ofInt_neg hx0
    rw [Fits, hn, List.length_cons] at hx
    by_cases hy0 : y < 0
    · -- The one with more digits has its sign where the other still has zeros.
      obtain ⟨m, rfl, hm⟩ := ofInt_neg hy0
      rw [Fits, hm, List.length_cons] at hy
      have hmn : m < n := by omega
      have hle := length_ofNat_mono (show m + 1 ≤ n + 1 by omega)
      have hne : (ofNat (m + 1)).length ≠ (ofNat (n + 1)).length := by
        intro hlen
        exact h ⟨hx0, hy0, by rw [hn, hm, List.length_cons, List.length_cons, hlen]⟩
      obtain ⟨j, hj⟩ : ∃ j, w - (ofInt (-(m + 1 : ℕ))).length =
          w - (ofInt (-(n + 1 : ℕ))).length + (j + 1) := by
        refine ⟨w - (ofInt (-(m + 1 : ℕ))).length - (w - (ofInt (-(n + 1 : ℕ))).length) - 1, ?_⟩
        rw [hn, hm, List.length_cons, List.length_cons]
        omega
      rw [rjust, rjust, hj, List.replicate_add, List.append_assoc, hn, List.replicate_succ]
      exact List.append_left_lt (List.cons_lt_cons_iff.mpr (.inl (by decide)))
    · obtain ⟨m, rfl, hm⟩ := ofInt_nonneg (Int.not_lt.mp hy0)
      rw [Fits, hm] at hy
      rw [hn, hm]
      refine sign_lt ?_ fun c hc => isDigit_of_mem_padTo (w := w) (n := m) hc
      rw [length_rjust hy, List.length_cons]
      omega
  · obtain ⟨n, rfl, hn⟩ := ofInt_nonneg (Int.not_lt.mp hx0)
    obtain ⟨m, rfl, hm⟩ := ofInt_nonneg (by omega : 0 ≤ y)
    rw [Fits, hn] at hx
    rw [Fits, hm] at hy
    rw [hn, hm]
    exact (padTo_lt_iff hx hy).mpr (by omega)

/-- Of two numbers below zero with as many digits the greater stands first. -/
theorem rjust_gt (hx : Fits w x) (hxy : x < y) (h : ¬InOrder x y) :
    rjust w (ofInt y) < rjust w (ofInt x) := by
  rw [InOrder, not_not] at h
  obtain ⟨hx0, hy0, hlen⟩ := h
  obtain ⟨n, rfl, hn⟩ := ofInt_neg hx0
  obtain ⟨m, rfl, hm⟩ := ofInt_neg hy0
  have hlen' : (ofNat (m + 1)).length = (ofNat (n + 1)).length := by
    rw [hn, hm, List.length_cons, List.length_cons] at hlen
    omega
  rw [rjust, rjust, hlen, hn, hm]
  refine List.append_left_lt (List.cons_lt_cons_iff.mpr (.inr ⟨rfl, ?_⟩))
  exact ofNat_lt hlen' (by omega)

/-! ## Padded numbers one behind the other -/

/-- Padded numbers one behind the other. -/
def joined (ws : List ℕ) (xs : List ℤ) : Text :=
  (List.zipWith (fun w x => rjust w (ofInt x)) ws xs).flatten

/-- Where two lists of numbers differ first, their padded texts stand in the order of the
numbers. -/
def FirstInOrder : List ℤ → List ℤ → Prop
  | x :: xs, y :: ys => if x = y then FirstInOrder xs ys else InOrder x y
  | _, _ => True

/-- The numbers are not wider than their padding. -/
def AllFit (ws : List ℕ) (xs : List ℤ) : Prop := List.Forall₂ Fits ws xs

instance {ws : List ℕ} {xs : List ℤ} : Decidable (AllFit ws xs) :=
  inferInstanceAs (Decidable (List.Forall₂ Fits ws xs))

theorem joined_lt {ws : List ℕ} {xs ys : List ℤ} (hx : AllFit ws xs) (hy : AllFit ws ys)
    (hxy : xs < ys) (h : FirstInOrder xs ys) : joined ws xs ++ u < joined ws ys ++ v := by
  induction hx generalizing ys with
  | nil =>
    cases hy
    simp at hxy
  | @cons w x ws xs hx _ ih =>
    cases hy with
    | @cons _ y _ ys hy hys =>
      simp only [joined, List.zipWith_cons_cons, List.flatten_cons, List.append_assoc]
      rw [append_lt_append_iff (by rw [length_rjust hx, length_rjust hy])]
      rw [FirstInOrder] at h
      rcases List.cons_lt_cons_iff.mp hxy with hfirst | ⟨rfl, hrest⟩
      · rw [if_neg (Int.ne_of_lt hfirst)] at h
        exact .inl (rjust_lt hx hy hfirst h)
      · rw [if_pos rfl] at h
        exact .inr ⟨rfl, ih hys hrest h⟩

theorem joined_gt {ws : List ℕ} {xs ys : List ℤ} (hx : AllFit ws xs) (hy : AllFit ws ys)
    (hxy : xs < ys) (h : ¬FirstInOrder xs ys) : joined ws ys ++ v < joined ws xs ++ u := by
  induction hx generalizing ys with
  | nil =>
    cases hy
    simp at hxy
  | @cons w x ws xs hx _ ih =>
    cases hy with
    | @cons _ y _ ys hy hys =>
      simp only [joined, List.zipWith_cons_cons, List.flatten_cons, List.append_assoc]
      rw [append_lt_append_iff (by rw [length_rjust hx, length_rjust hy])]
      rw [FirstInOrder] at h
      rcases List.cons_lt_cons_iff.mp hxy with hfirst | ⟨rfl, hrest⟩
      · rw [if_neg (Int.ne_of_lt hfirst)] at h
        exact .inl (rjust_gt hx hfirst h)
      · rw [if_pos rfl] at h
        exact .inr ⟨rfl, ih hys hrest h⟩

end Text
