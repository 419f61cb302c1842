import Mathlib.Data.Char
import Mathlib.Data.List.DropRight
import Mathlib.Data.List.Lex
import Mathlib.Data.List.TakeDrop
import Mathlib.Data.String.Basic
import Mathlib.Algebra.Ring.Nat
import Mathlib.Algebra.Ring.Int.Defs
import Mathlib.Data.List.Infix

/-!
# Text as the code sees it

A string is its list of characters, and the operations below are the Python string
operations that the verified code applies to keys, names and identifiers. Letter case and
digits follow the ASCII tables of `Char`; the blank characters are the full Unicode list
that `str.strip` removes.

## Main definitions

* `Text` — a string.
* `Text.strip`, `Text.lower`, `Text.upper`, `Text.isDigit` — the operations on one string.
* `Text.joinColon`, `Text.beforeColon`, `Text.afterColon` — building `a:b` and splitting it
  at its first colon.
* `Text.ofNat`, `Text.ofInt`, `Text.pad2`, `Text.padTo`, `Text.toNat`, `Text.parseInt` — numbers
  as text.
* `Text.span` — the span of numbers behind a letter.
-/

/-- A string, as the list of its characters. -/
abbrev Text := List Char

namespace Text

/-! ## Equality of texts -/

instance lawfulBEqText : LawfulBEq Text := inferInstance
instance lawfulBEqPair : LawfulBEq (Text × Text) := inferInstance
instance lawfulBEqNumbered : LawfulBEq (ℕ × Text) := inferInstance
instance lawfulBEqOption : LawfulBEq (Option Text) := inferInstance

/-! ## Strings -/

/-- A string literal as a text. -/
abbrev of (s : String) : Text := s.toList

/-- The characters that `str.strip` removes. -/
def isSpace (c : Char) : Bool :=
  let n := c.toNat
  (9 ≤ n && n ≤ 13) || (28 ≤ n && n ≤ 32) || n == 133 || n == 160 || n == 5760 ||
    (8192 ≤ n && n ≤ 8202) || n == 8232 || n == 8233 || n == 8239 || n == 8287 || n == 12288

/-- `str.strip()`. -/
def strip (s : Text) : Text := (s.dropWhile isSpace).rdropWhile isSpace

/-- `str.lower()` on ASCII letters. -/
def lower (s : Text) : Text := s.map Char.toLower

/-- `str.upper()` on ASCII letters. -/
def upper (s : Text) : Text := s.map Char.toUpper

/-- `str.isdigit()`: not empty, and digits only. -/
def isDigit (s : Text) : Bool := !s.isEmpty && s.all Char.isDigit

/-- `str.startswith(prefix)`. -/
def startsWith (s p : Text) : Bool := p.isPrefixOf s

/-- The text `a:b`. -/
def joinColon (a b : Text) : Text := a ++ ':' :: b

/-- The first part of `str.split(":", 1)`. -/
def beforeColon (s : Text) : Text := s.takeWhile (· != ':')

/-- The second part of `str.split(":", 1)`; empty where there is no colon. -/
def afterColon (s : Text) : Text := (s.dropWhile (· != ':')).tail

/-- `str(n)` for a natural number. -/
def ofNat (n : ℕ) : Text := Nat.toDigits 10 n

/-- `str(n)` for an integer. -/
def ofInt : ℤ → Text
  | .ofNat n => ofNat n
  | .negSucc n => '-' :: ofNat (n + 1)

/-- The format `{n:02d}`. -/
def pad2 (n : ℕ) : Text := if n < 10 then '0' :: ofNat n else ofNat n

/-- `str(n).rjust(width, "0")`. -/
def padTo (width n : ℕ) : Text := List.replicate (width - (ofNat n).length) '0' ++ ofNat n

/-- `str.rjust(width, "0")`. -/
def rjust (width : ℕ) (s : Text) : Text := List.replicate (width - s.length) '0' ++ s

/-- `str.ljust(width, " ")`. -/
def ljust (width : ℕ) (s : Text) : Text := s ++ List.replicate (width - s.length) ' '

/-- `int(s)` for a text of digits. -/
def toNat (s : Text) : ℕ := s.foldl (fun n c => 10 * n + (c.toNat - '0'.toNat)) 0

/-- The digits of `int(text)`: single underscores may stand between digits. -/
def parseDigits : Text → Option ℕ → Bool → Option ℕ
  | [], acc, afterDigit => if afterDigit then acc else none
  | c :: s, acc, afterDigit =>
    if c.isDigit then parseDigits s (some (acc.getD 0 * 10 + (c.toNat - '0'.toNat))) true
    else if c = '_' ∧ afterDigit then parseDigits s acc false
    else none

/-- `int(text)`. -/
def parseInt (s : Text) : Option ℤ :=
  match s.strip with
  | '-' :: r => (parseDigits r none false).map fun n => -(n : ℤ)
  | '+' :: r => (parseDigits r none false).map fun n => (n : ℤ)
  | r => (parseDigits r none false).map fun n => (n : ℤ)

/-- The last number of a span that starts with `first`: what `\s*-\s*L?(\d+)` finds at the
start of the text, and `first` where it finds nothing. -/
def spanEnd (letter : Char) (first : ℕ) (s : Text) : ℕ :=
  match s.dropWhile isSpace with
  | '-' :: rest =>
    let rest := rest.dropWhile isSpace
    let digits := (if rest.head? = some letter then rest.tail else rest).takeWhile Char.isDigit
    if digits = [] then first else toNat digits
  | _ => first

/-- The first span of numbers in a text, `L01` or `L01-L05`: what `re.search` finds for
`L(\d+)(?:\s*-\s*L?(\d+))?`. -/
def span (letter : Char) : Text → Option (ℕ × ℕ)
  | [] => none
  | c :: rest =>
    let digits := rest.takeWhile Char.isDigit
    if c = letter ∧ digits ≠ [] then
      some (toNat digits, spanEnd letter (toNat digits) (rest.dropWhile Char.isDigit))
    else span letter rest

/-! ## Blank ends -/

/-- Neither end of the text is blank. -/
def Trimmed (s : Text) : Prop :=
  (∀ c ∈ s.head?, isSpace c = false) ∧ (∀ c ∈ s.getLast?, isSpace c = false)

instance (s : Text) : Decidable (Trimmed s) :=
  @instDecidableAnd _ _ (Option.decidableForallMem _) (Option.decidableForallMem _)

theorem strip_of_trimmed {s : Text} (h : Trimmed s) : strip s = s := by
  cases s with
  | nil => rfl
  | cons c s =>
    have hc : isSpace c = false := h.1 c rfl
    have hd : (c :: s).dropWhile isSpace = c :: s := by simp [hc]
    rw [strip, hd, List.rdropWhile_eq_self_iff]
    intro hne
    have := h.2 _ (List.getLast?_eq_getLast_of_ne_nil hne)
    simp [this]

theorem trimmed_strip (s : Text) : Trimmed s.strip := by
  have hlast : ∀ c ∈ s.strip.getLast?, isSpace c = false := by
    intro c hc
    obtain ⟨hne, rfl⟩ := List.mem_getLast?_eq_getLast hc
    have := List.rdropWhile_last_not isSpace (s.dropWhile isSpace) hne
    simpa [strip] using this
  refine ⟨?_, hlast⟩
  intro c hc
  -- The head of the stripped text is the head of what the left strip kept.
  have hpre : s.strip <+: s.dropWhile isSpace := List.rdropWhile_prefix isSpace _
  obtain ⟨t, ht⟩ := hpre
  cases hs : s.strip with
  | nil => simp [hs] at hc
  | cons d r =>
    rw [hs] at hc ht
    obtain rfl : d = c := by simpa using hc
    have hd : s.dropWhile isSpace = d :: (r ++ t) := by simpa using ht.symm
    have hne : s.dropWhile isSpace ≠ [] := by simp [hd]
    have := List.head_dropWhile_not isSpace hne
    simpa [hd] using this

@[simp] theorem strip_strip (s : Text) : s.strip.strip = s.strip :=
  strip_of_trimmed (trimmed_strip s)

@[simp] theorem strip_nil : strip [] = [] := rfl

theorem strip_subset {s : Text} : s.strip ⊆ s := by
  intro c hc
  exact (List.dropWhile_suffix _).subset ((List.rdropWhile_prefix _ _).subset hc)

/-- A text with a character that is not blank keeps it. -/
theorem mem_strip {s : Text} {c : Char} (h : c ∈ s) (hc : isSpace c = false) : c ∈ s.strip := by
  have hl : c ∈ s.dropWhile isSpace := by
    rw [← @List.takeWhile_append_dropWhile _ isSpace s] at h
    rcases List.mem_append.mp h with h | h
    · exact absurd (List.mem_takeWhile_imp h) (by simp [hc])
    · exact h
  rw [strip, List.rdropWhile, List.mem_reverse]
  rw [← List.mem_reverse,
    ← @List.takeWhile_append_dropWhile _ isSpace (s.dropWhile isSpace).reverse] at hl
  rcases List.mem_append.mp hl with h | h
  · exact absurd (List.mem_takeWhile_imp h) (by simp [hc])
  · exact h

theorem colon_mem_strip {s : Text} (h : ':' ∈ s) : ':' ∈ s.strip := mem_strip h (by decide)

/-- A text that begins and ends with a character that is not blank keeps whatever stands
in front of it except the leading blanks. -/
theorem strip_append {r u : Text} (hu : Trimmed u) (hne : u ≠ []) :
    strip (r ++ u) = r.dropWhile isSpace ++ u := by
  have hdrop : (r ++ u).dropWhile isSpace = r.dropWhile isSpace ++ u := by
    rw [List.dropWhile_append]
    split
    · rename_i hnil
      obtain ⟨c, v, rfl⟩ := List.exists_cons_of_ne_nil hne
      have hc : isSpace c = false := hu.1 c rfl
      have : r.dropWhile isSpace = [] := by simpa using hnil
      simp [hc, this]
    · rfl
  rw [strip, hdrop, List.rdropWhile_eq_self_iff]
  intro happ
  have hlast := hu.2 _ (List.getLast?_eq_getLast_of_ne_nil hne)
  rw [List.getLast_append_of_ne_nil happ hne]
  simp [hlast]

/-- Stripping a text without trailing blanks only drops its leading ones. -/
theorem strip_of_getLast {s : Text} (h : ∀ c ∈ s.getLast?, isSpace c = false) :
    s.strip = s.dropWhile isSpace := by
  rw [strip, List.rdropWhile_eq_self_iff]
  intro hne
  obtain ⟨t, ht⟩ := @List.dropWhile_suffix _ s isSpace
  have hlast : s.getLast? = some ((s.dropWhile isSpace).getLast hne) := by
    conv_lhs => rw [← ht]
    rw [List.getLast?_append, List.getLast?_eq_getLast_of_ne_nil hne]
    rfl
  have := h _ hlast
  simp [this]

theorem isSpace_of_isDigit {c : Char} (h : c.isDigit = true) : isSpace c = false := by
  have h48 : 48 ≤ c.toNat ∧ c.toNat ≤ 57 := by
    simp only [Char.isDigit, Bool.and_eq_true, decide_eq_true_eq] at h
    exact ⟨h.1, h.2⟩
  simp only [isSpace]
  grind

theorem isDigit_of_mem_ofNat {n : ℕ} {c : Char} (h : c ∈ ofNat n) : c.isDigit = true :=
  Nat.isDigit_of_mem_toDigits (by decide) (by decide) h

theorem isDigit_of_mem_pad2 {n : ℕ} {c : Char} (h : c ∈ pad2 n) : c.isDigit = true := by
  rw [pad2] at h
  split_ifs at h
  · rcases List.mem_cons.mp h with rfl | h
    · decide
    · exact isDigit_of_mem_ofNat h
  · exact isDigit_of_mem_ofNat h

/-- A text none of whose characters is blank. -/
theorem trimmed_of_forall {s : Text} (h : ∀ c ∈ s, isSpace c = false) : Trimmed s :=
  ⟨fun c hc => h c (List.mem_of_head? hc), fun c hc => h c (List.mem_of_getLast? hc)⟩

theorem ofNat_ne_nil (n : ℕ) : ofNat n ≠ [] := Nat.toDigits_ne_nil

theorem ofInt_ne_nil (n : ℤ) : ofInt n ≠ [] := by
  cases n with
  | ofNat n => exact ofNat_ne_nil n
  | negSucc n => simp [ofInt]

/-- A number has no blank ends. -/
theorem strip_ofInt (n : ℤ) : (ofInt n).strip = ofInt n := by
  refine strip_of_trimmed (trimmed_of_forall ?_)
  intro c hc
  cases n with
  | ofNat n => exact isSpace_of_isDigit (isDigit_of_mem_ofNat hc)
  | negSucc n =>
    rcases List.mem_cons.mp hc with rfl | hc
    · decide
    · exact isSpace_of_isDigit (isDigit_of_mem_ofNat hc)

/-! ## Numbers as text -/

theorem isDigit_of_mem_padTo {w n : ℕ} {c : Char} (h : c ∈ padTo w n) : c.isDigit = true := by
  rcases List.mem_append.mp h with h | h
  · obtain rfl := List.eq_of_mem_replicate h
    decide
  · exact isDigit_of_mem_ofNat h

theorem padTo_ne_nil (w n : ℕ) : padTo w n ≠ [] := by simp [padTo, ofNat_ne_nil]

theorem pad2_eq (n : ℕ) : pad2 n = padTo 2 n := by
  have hlen : (ofNat n).length ≤ 1 ↔ n < 10 := by
    rw [ofNat, Nat.length_toDigits_le_iff (by decide) (by decide)]
  have hpos : 0 < (ofNat n).length := List.length_pos_of_ne_nil (ofNat_ne_nil n)
  rw [pad2, padTo]
  by_cases hn : n < 10
  · have h1 : (ofNat n).length = 1 := by omega
    rw [if_pos hn, h1]
    rfl
  · have h2 : 2 - (ofNat n).length = 0 := by omega
    rw [if_neg hn, h2]
    rfl

/-- A number has at most `k` digits where it lies below `10 ^ k`, however it is padded. -/
theorem length_padTo_le_iff {w n k : ℕ} (hk : 0 < k) (hw : w ≤ k) :
    (padTo w n).length ≤ k ↔ n < 10 ^ k := by
  have hlen : (ofNat n).length ≤ k ↔ n < 10 ^ k := Nat.length_toDigits_le_iff (by decide) hk
  rw [← hlen, padTo, List.length_append, List.length_replicate]
  omega

theorem toNat_padTo (w n : ℕ) : toNat (padTo w n) = n := by
  have hfold : ∀ s : Text, toNat s = Nat.ofDigitChars 10 s 0 := fun s =>
    Nat.ofDigitChars_eq_foldl.symm
  rw [hfold, padTo, Nat.ofDigitChars_append, Nat.ofDigitChars_replicate_zero, Nat.mul_zero, ofNat,
    Nat.ofDigitChars_ten_toDigits]

theorem isDigit_padTo (w n : ℕ) : isDigit (padTo w n) = true := by
  have hall : (padTo w n).all Char.isDigit = true :=
    List.all_eq_true.mpr fun _ hc => isDigit_of_mem_padTo hc
  simp [isDigit, padTo_ne_nil, hall]

theorem trimmed_padTo (w n : ℕ) : Trimmed (padTo w n) :=
  trimmed_of_forall fun _ hc => isSpace_of_isDigit (isDigit_of_mem_padTo hc)

/-- A number that is not padded. -/
theorem padTo_zero (n : ℕ) : padTo 0 n = ofNat n := by simp [padTo]

theorem toNat_ofNat (n : ℕ) : toNat (ofNat n) = n := padTo_zero n ▸ toNat_padTo 0 n

theorem isDigit_ofNat (n : ℕ) : isDigit (ofNat n) = true := padTo_zero n ▸ isDigit_padTo 0 n

theorem strip_ofNat (n : ℕ) : strip (ofNat n) = ofNat n :=
  strip_of_trimmed (padTo_zero n ▸ trimmed_padTo 0 n)

/-- One blank behind a text without blank ends is stripped. -/
theorem strip_append_blank {u : Text} (hu : Trimmed u) (hne : u ≠ []) :
    strip (u ++ [' ']) = u := by
  obtain ⟨c, v, rfl⟩ := List.exists_cons_of_ne_nil hne
  have hc : isSpace c = false := hu.1 c rfl
  have hblank : isSpace ' ' = true := by decide
  have hdrop : (c :: v ++ [' ']).dropWhile isSpace = c :: v ++ [' '] := by simp [hc]
  have hself : (c :: v).rdropWhile isSpace = c :: v := by
    rw [List.rdropWhile_eq_self_iff]
    intro hne
    have := hu.2 _ (List.getLast?_eq_getLast_of_ne_nil hne)
    simp [this]
  rw [strip, hdrop, List.rdropWhile_concat_pos _ _ _ hblank, hself]

theorem toUpper_of_isDigit {c : Char} (h : c.isDigit = true) : c.toUpper = c := by
  have h57 : c.val.toNat ≤ 57 := by
    simp only [Char.isDigit, Bool.and_eq_true, decide_eq_true_eq] at h
    exact h.2
  delta Char.toUpper
  rw [dif_neg]
  intro hup
  have hlo : 97 ≤ c.val.toNat := hup.1
  omega

/-- The digits in front of a text that goes on with something else. -/
theorem takeWhile_digits {u s : Text} (hu : ∀ c ∈ u, c.isDigit = true)
    (hs : ∀ c ∈ s.head?, c.isDigit = false) : (u ++ s).takeWhile Char.isDigit = u := by
  rw [List.takeWhile_append_of_pos hu]
  cases s with
  | nil => simp
  | cons c s => simp [hs c rfl]

theorem dropWhile_digits {u s : Text} (hu : ∀ c ∈ u, c.isDigit = true)
    (hs : ∀ c ∈ s.head?, c.isDigit = false) : (u ++ s).dropWhile Char.isDigit = s := by
  rw [List.dropWhile_append_of_pos hu]
  cases s with
  | nil => simp
  | cons c s => simp [hs c rfl]

/-! ## Colons -/

private theorem toUpper_eq_colon_iff (c : Char) : c.toUpper = ':' ↔ c = ':' := by
  delta Char.toUpper
  split
  · rename_i h
    have hlo : 97 ≤ c.val.toNat := h.1
    have hhi : c.val.toNat ≤ 122 := h.2
    have hd : ('A'.val - 'a'.val).toNat = 4294967264 := by decide +kernel
    have h58 : (':' : Char).val.toNat = 58 := by decide +kernel
    constructor
    · intro hc
      have hv := congrArg (fun d : Char => d.val.toNat) hc
      simp only [UInt32.toNat_add, hd, h58] at hv
      omega
    · rintro rfl
      omega
  · rfl

@[simp] theorem colon_mem_upper (s : Text) : ':' ∈ s.upper ↔ ':' ∈ s := by
  simp only [upper, List.mem_map, toUpper_eq_colon_iff]
  constructor
  · rintro ⟨c, hc, rfl⟩
    exact hc
  · intro h
    exact ⟨':', h, rfl⟩

@[simp] theorem upper_beforeColon (s : Text) : s.upper.beforeColon = s.beforeColon.upper := by
  simp only [beforeColon, upper, List.takeWhile_map]
  congr 2
  funext c
  have hiff := toUpper_eq_colon_iff c
  simp only [Function.comp_apply, bne, hiff, beq_eq_decide]

theorem colon_not_mem_beforeColon (s : Text) : ':' ∉ s.beforeColon := by
  intro h
  have := List.mem_takeWhile_imp h
  simp at this

/-- A text with a colon is the join of its two parts. -/
theorem joinColon_parts {s : Text} (h : ':' ∈ s) : s.beforeColon.joinColon s.afterColon = s := by
  induction s with
  | nil => simp at h
  | cons c s ih =>
    by_cases hc : c = ':'
    · subst hc
      simp [joinColon, beforeColon, afterColon]
    · have hs : ':' ∈ s := by
        rcases List.mem_cons.mp h with h | h
        · exact absurd h.symm hc
        · exact h
      have := ih hs
      simp only [joinColon, beforeColon, afterColon] at this ⊢
      simp [hc, this]

@[simp] theorem colon_mem_joinColon (a b : Text) : ':' ∈ a.joinColon b := by simp [joinColon]

@[simp] theorem beforeColon_joinColon {a b : Text} (h : ':' ∉ a) :
    (a.joinColon b).beforeColon = a := by
  induction a with
  | nil => simp [joinColon, beforeColon]
  | cons c a ih =>
    obtain ⟨hc, ha⟩ := not_or.mp (mt List.mem_cons.mpr h)
    have := ih ha
    simp only [joinColon, beforeColon] at this ⊢
    simp [Ne.symm hc, this]

@[simp] theorem afterColon_joinColon {a b : Text} (h : ':' ∉ a) :
    (a.joinColon b).afterColon = b := by
  induction a with
  | nil => simp [joinColon, afterColon]
  | cons c a ih =>
    obtain ⟨hc, ha⟩ := not_or.mp (mt List.mem_cons.mpr h)
    have := ih ha
    simp only [joinColon, afterColon] at this ⊢
    simp [Ne.symm hc, this]

theorem joinColon_joinColon (a b c : Text) :
    (a.joinColon b).joinColon c = a.joinColon (b.joinColon c) := by simp [joinColon]

theorem joinColon_right_inj {a a' b : Text} : a.joinColon b = a'.joinColon b ↔ a = a' := by
  simp [joinColon]

/-- A text starts with `q:`, for a `q` without a colon, exactly where its part before the
first colon is `q`. -/
theorem startsWith_colon_iff {s q : Text} (hq : ':' ∉ q) :
    s.startsWith (q.joinColon []) = true ↔ ':' ∈ s ∧ s.beforeColon = q := by
  constructor
  · intro h
    obtain ⟨t, rfl⟩ := List.isPrefixOf_iff_prefix.mp h
    have heq : q.joinColon [] ++ t = q.joinColon t := by simp [joinColon]
    rw [heq]
    exact ⟨colon_mem_joinColon q t, beforeColon_joinColon hq⟩
  · rintro ⟨hs, rfl⟩
    refine List.isPrefixOf_iff_prefix.mpr ⟨s.afterColon, ?_⟩
    have heq : s.beforeColon.joinColon [] ++ s.afterColon = s.beforeColon.joinColon s.afterColon := by
      simp [joinColon]
    rw [heq, joinColon_parts hs]

/-- What stands after `q:` in a text that starts so. -/
theorem drop_beforeColon {s : Text} (h : ':' ∈ s) :
    s.drop (s.beforeColon.length + 1) = s.afterColon := by
  have hs := joinColon_parts h
  calc s.drop (s.beforeColon.length + 1)
      = (s.beforeColon.joinColon s.afterColon).drop (s.beforeColon.length + 1) := by rw [hs]
    _ = s.afterColon := by simp [joinColon, List.drop_append]

end Text
