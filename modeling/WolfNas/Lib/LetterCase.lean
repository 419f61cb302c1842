import Mathlib
import WolfNas.Lib.Text

/-!
# Letter case and blank ends

Changing the case of the letters of a text moves no blank and no colon, and blanks around a text
are what stripping takes away.

## Main definitions

* `Text.AllBlank` — a text of blanks only.

## Main results

* `Text.lower_lower`, `Text.lower_upper`, `Text.upper_lower` — the case that was set last.
* `Text.strip_pad` — blanks around a text without blank ends.
-/

namespace Text

/-- A text of blanks only. -/
def AllBlank (s : Text) : Prop := ∀ c ∈ s, isSpace c = true

instance (s : Text) : Decidable (AllBlank s) :=
  decidable_of_iff (s.all isSpace = true) List.all_eq_true

/-! ## Letters -/

theorem isSpace_of_isAlpha {c : Char} (h : c.isAlpha = true) : isSpace c = false := by
  simp only [Char.isAlpha, Char.isUpper, Char.isLower, Bool.or_eq_true, decide_eq_true_eq,
    Bool.and_eq_true, ge_iff_le, UInt32.le_iff_toNat_le, Char.toNat_val, Char.reduceVal,
    UInt32.reduceToNat] at h
  simp only [isSpace, Bool.or_eq_false_iff, Bool.and_eq_false_iff, decide_eq_false_iff_not,
    beq_eq_false_iff_ne]
  omega

theorem isSpace_toLower (c : Char) : isSpace c.toLower = isSpace c := by
  by_cases h : c.isAlpha = true
  · have hlower : c.toLower.isAlpha = true := by rw [Char.isAlpha_toLower_eq_isAlpha, h]
    rw [isSpace_of_isAlpha h, isSpace_of_isAlpha hlower]
  · have hupper : ¬c.isUpper = true := fun hup => h (by simp [Char.isAlpha, hup])
    rw [Char.toLower_eq_of_not_isUpper hupper]

@[simp] theorem lower_lower (s : Text) : s.lower.lower = s.lower := by simp [lower]

@[simp] theorem lower_upper (s : Text) : s.upper.lower = s.lower := by simp [lower, upper]

@[simp] theorem upper_lower (s : Text) : s.lower.upper = s.upper := by simp [lower, upper]

@[simp] theorem colon_mem_lower (s : Text) : ':' ∈ s.lower ↔ ':' ∈ s := by
  rw [← colon_mem_upper s.lower, upper_lower, colon_mem_upper]

/-- The upper case of two texts is the same where the lower case is. -/
theorem upper_eq_upper_iff {s t : Text} : s.upper = t.upper ↔ s.lower = t.lower := by
  constructor
  · intro h
    rw [← lower_upper s, h, lower_upper]
  · intro h
    rw [← upper_lower s, h, upper_lower]

/-! ## AllBlank ends -/

theorem trimmed_lower {s : Text} (h : Trimmed s) : Trimmed s.lower := by
  constructor
  · intro c hc
    rw [lower, List.head?_map, Option.mem_map] at hc
    obtain ⟨d, hd, rfl⟩ := hc
    rw [isSpace_toLower, h.1 d hd]
  · intro c hc
    rw [lower, List.getLast?_map, Option.mem_map] at hc
    obtain ⟨d, hd, rfl⟩ := hc
    rw [isSpace_toLower, h.2 d hd]

theorem trimmed_of_lower {s : Text} (h : Trimmed s.lower) : Trimmed s := by
  constructor
  · intro c hc
    have hlower : c.toLower ∈ s.lower.head? := by
      rw [lower, List.head?_map]
      exact Option.mem_map_of_mem Char.toLower hc
    rw [← isSpace_toLower, h.1 _ hlower]
  · intro c hc
    have hlower : c.toLower ∈ s.lower.getLast? := by
      rw [lower, List.getLast?_map]
      exact Option.mem_map_of_mem Char.toLower hc
    rw [← isSpace_toLower, h.2 _ hlower]

/-- Two texts without blank ends, with something between them, are one. -/
theorem trimmed_append {s u : Text} (m : Text) (hs : Trimmed s) (hu : Trimmed u) (hsne : s ≠ [])
    (hune : u ≠ []) : Trimmed (s ++ m ++ u) := by
  constructor
  · intro c hc
    rw [List.append_assoc, List.head?_append_of_ne_nil _ hsne] at hc
    exact hs.1 c hc
  · intro c hc
    rw [List.getLast?_append_of_ne_nil _ hune] at hc
    exact hu.2 c hc

/-- Blanks around a text are stripped. -/
theorem strip_pad {a u d : Text} (ha : AllBlank a) (hd : AllBlank d) (hu : Trimmed u) :
    strip (a ++ u ++ d) = u := by
  by_cases hne : u = []
  · subst hne
    have hall : (a ++ [] ++ d).dropWhile isSpace = [] := by
      rw [List.dropWhile_eq_nil_iff]
      intro c hc
      rw [List.append_nil, List.mem_append] at hc
      exact hc.elim (ha c) (hd c)
    rw [strip, hall, List.rdropWhile_nil]
  · have hfront : (a ++ u ++ d).dropWhile isSpace = u ++ d := by
      rw [List.append_assoc, List.dropWhile_append_of_pos ha]
      obtain ⟨c, v, rfl⟩ := List.exists_cons_of_ne_nil hne
      simp [hu.1 c rfl]
    have hself : u.rdropWhile isSpace = u := by
      rw [List.rdropWhile_eq_self_iff]
      intro h
      simp [hu.2 _ (List.getLast?_eq_getLast_of_ne_nil h)]
    have hback : (d.reverse ++ u.reverse).dropWhile isSpace = u.reverse.dropWhile isSpace :=
      List.dropWhile_append_of_pos fun c hc => hd c (List.mem_reverse.mp hc)
    rw [strip, hfront, List.rdropWhile, List.reverse_append, hback]
    exact hself

end Text
