import WolfNas.Lib.Binary64
import WolfNas.Limit.SiteSpacing

/-!
# Range rules

The rules of a brush task are a dictionary from the browser.  A rule about a number is a text: an
operator, a number sign, and one or two bounds.  What cannot be read so, or compared, is taken for
met.

## Main definitions

* `RuleValue` — a value of the dictionary; `RuleValue.isIgnored` — the rule is switched off.
* `RangeRule`, `RuleValue.range` — a range, and how it is read.
* `checkRangeRule` — the check.

## Main results

* `RangeRule.accepts_iff` — a range accepts what meets it and what it misreads.
-/

namespace WolfNas

open Text

/-- A value of a dictionary of rules. -/
inductive RuleValue
  | null
  | text (t : Text)
  /-- A number, a truth value or a dictionary. -/
  | scalar (truthy : Bool)
  | list (truthy : Bool)
  deriving DecidableEq, Repr

/-- `rule_value in ("#", "N", None, "")`. -/
def RuleValue.isIgnored : RuleValue → Bool
  | null => true
  | text t => t ∈ [of "#", of "N", []]
  | scalar _ | list _ => false

/-- `bool(rule_value)`. -/
def RuleValue.truthy : RuleValue → Bool
  | null => false
  | text t => t ≠ []
  | scalar b | list b => b

/-- `float(text)`; none where it raises. -/
def floatOf (t : Text) : Option FloatNumber :=
  (parseFloat t).map fun
    | .value x => .finite x
    | .infinite => .infinite (signOf t.strip).1
    | .nan => none

/-- A range; a bound that is none is blank. -/
structure RangeRule where
  operator : Text
  min : Option FloatNumber
  max : Option FloatNumber
  deriving DecidableEq

/-- A bound in the unit of the value; none where it raises. -/
def boundOf (multiplier : ℕ) (t : Text) : Option (Option FloatNumber) :=
  if t = [] then some none else (floatOf t).map fun x => some (x.scale multiplier)

/-- The range of a rule; none where it has no bounds, or one that is no number. -/
def RuleValue.range (multiplier : ℕ) : RuleValue → Option RangeRule
  | text t =>
    match t.splitOn '#' with
    | operator :: bounds :: _ =>
      if bounds = [] then none
      else
        let values := bounds.splitOn ','
        (boundOf multiplier (values.headD [])).bind fun min =>
          (boundOf multiplier (values.getD 1 [])).map fun max => { operator, min, max }
    | _ => none
  | _ => none

/-- The lower bound, which is 0 where it is blank. -/
def RangeRule.minValue (r : RangeRule) : FloatNumber := r.min.getD (.finite 0)

/-- The comparisons of `check_range_rule`. -/
def RangeRule.accepts (r : RangeRule) (value : FloatNumber) : Bool :=
  if r.operator = of "gt" ∧ value.lt r.minValue then false
  else if r.operator = of "lt" ∧ r.minValue.lt value then false
  else !(decide (r.operator = of "bw") && (value.lt r.minValue || r.max.any (·.le value)))

/-- `check_range_rule`. -/
def checkRangeRule (value : Option FloatNumber) (rule : RuleValue) (multiplier : ℕ) : Bool :=
  match value with
  | none => true
  | some value =>
    match rule.range multiplier with
    | none => true
    | some r => r.accepts value

/-! ## What a range says -/

namespace RangeRule

variable (r : RangeRule) (value : FloatNumber)

/-- The bounds that the operator asks for are there. -/
def Bounded : Prop :=
  (r.operator = of "gt" ∧ r.min ≠ none) ∨ (r.operator = of "lt" ∧ r.min ≠ none) ∨
    (r.operator = of "bw" ∧ (r.min ≠ none ∨ r.max ≠ none))

instance : Decidable r.Bounded := inferInstanceAs (Decidable (_ ∨ _))

/-- The value is within the bounds. -/
def Within : Prop :=
  (r.operator = of "gt" ∧ r.minValue.le value = true) ∨
    (r.operator = of "lt" ∧ value.le r.minValue = true) ∨
    (r.operator = of "bw" ∧ r.minValue.le value = true ∧ ∀ max ∈ r.max, value.lt max = true)

instance : Decidable (r.Within value) := inferInstanceAs (Decidable (_ ∨ _))

/-- The range has a bound, and the value is within. -/
def Met : Prop := r.Bounded ∧ r.Within value

instance : Decidable (r.Met value) := inferInstanceAs (Decidable (_ ∧ _))

/-- No bound excludes the value. -/
def Allows : Prop :=
  (r.operator = of "gt" ∧ value.lt r.minValue = false) ∨
    (r.operator = of "lt" ∧ r.minValue.lt value = false) ∨
    (r.operator = of "bw" ∧ value.lt r.minValue = false ∧ ∀ max ∈ r.max, max.le value = false)

instance : Decidable (r.Allows value) := inferInstanceAs (Decidable (_ ∨ _))

/-- Something that is compared is no number, and no bound excludes the value. -/
def Incomparable : Prop :=
  (value = none ∨ r.minValue = none ∨ (r.operator = of "bw" ∧ r.max = some none)) ∧ r.Allows value

instance : Decidable (r.Incomparable value) := inferInstanceAs (Decidable (_ ∧ _))

/-- The range accepts the value without being met by it: the operator is not known, the bounds that
it asks for are blank, or something that is compared is no number. -/
def Misread : Prop :=
  r.operator ∉ [of "gt", of "lt", of "bw"] ∨ (¬r.Bounded ∧ r.Within value) ∨ r.Incomparable value

instance : Decidable (r.Misread value) := inferInstanceAs (Decidable (_ ∨ _))

variable {r value}

/-- A range accepts what no bound excludes. -/
theorem accepts_iff_allows :
    r.accepts value = true ↔ r.operator ∉ [of "gt", of "lt", of "bw"] ∨ r.Allows value := by
  have hgl : of "gt" ≠ of "lt" := by decide
  have hgb : of "gt" ≠ of "bw" := by decide
  have hlb : of "lt" ≠ of "bw" := by decide
  unfold accepts Allows
  by_cases hgt : r.operator = of "gt"
  · simp [hgt, hgl, hgb]
  · by_cases hlt : r.operator = of "lt"
    · simp [hlt, hgl.symm, hlb]
    · by_cases hbw : r.operator = of "bw"
      · cases r.max <;> simp [hbw, hgb.symm, hlb.symm]
      · simp [hgt, hlt, hbw]

/-- What no bound excludes is within the bounds, where all that is compared are numbers. -/
theorem allows_iff : r.Allows value ↔ r.Within value ∨ r.Incomparable value := by
  have hweak : r.Within value → r.Allows value := by
    rintro (⟨hop, hle⟩ | ⟨hop, hle⟩ | ⟨hop, hle, hmax⟩)
    · exact .inl ⟨hop, FloatNumber.lt_eq_false_of_le hle⟩
    · exact .inr (.inl ⟨hop, FloatNumber.lt_eq_false_of_le hle⟩)
    · refine .inr (.inr ⟨hop, FloatNumber.lt_eq_false_of_le hle, ?_⟩)
      intro max hmem
      exact FloatNumber.le_eq_false_of_lt (hmax max hmem)
  constructor
  · intro hallows
    by_cases hwithin : r.Within value
    · exact .inl hwithin
    · refine .inr ⟨?_, hallows⟩
      by_contra hnumbers
      push Not at hnumbers
      obtain ⟨hvalue, hmin, hmax⟩ := hnumbers
      refine hwithin ?_
      rcases hallows with ⟨hop, hlt⟩ | ⟨hop, hlt⟩ | ⟨hop, hlt, hbound⟩
      · exact .inl ⟨hop, FloatNumber.le_of_lt_eq_false hlt hvalue hmin⟩
      · exact .inr (.inl ⟨hop, FloatNumber.le_of_lt_eq_false hlt hmin hvalue⟩)
      · refine .inr (.inr ⟨hop, FloatNumber.le_of_lt_eq_false hlt hvalue hmin, ?_⟩)
        intro max hmem
        refine FloatNumber.lt_of_le_eq_false (hbound max hmem) ?_ hvalue
        rintro rfl
        exact hmax hop hmem
  · intro h
    rcases h with hwithin | hincomparable
    · exact hweak hwithin
    · exact hincomparable.2

/-- **A range accepts** what meets it, and what it misreads. -/
theorem accepts_iff : r.accepts value = true ↔ r.Met value ∨ r.Misread value := by
  rw [accepts_iff_allows, allows_iff, Met, Misread]
  by_cases hbounded : r.Bounded
  · simp only [hbounded, true_and, not_true_eq_false, false_and, false_or]
    tauto
  · simp only [hbounded, false_and, not_false_eq_true, true_and, false_or]

/-- What meets a range is not misread. -/
theorem not_misread_of_met (h : r.Met value) : ¬r.Misread value := by
  obtain ⟨hbounded, hwithin⟩ := h
  rintro (hop | ⟨hunbounded, _⟩ | ⟨hnumber, _⟩)
  · rcases hwithin with ⟨h, _⟩ | ⟨h, _⟩ | ⟨h, _⟩ <;> simp [h] at hop
  · exact hunbounded hbounded
  · rcases hwithin with ⟨hgt, hle⟩ | ⟨hlt, hle⟩ | ⟨_, hle, hmax⟩
    · have hbw : r.operator ≠ of "bw" := by rw [hgt]; decide
      rcases hnumber with hvalue | hmin | ⟨hop, _⟩
      · simp [hvalue, FloatNumber.le] at hle
      · simp [hmin, FloatNumber.le] at hle
      · exact hbw hop
    · have hbw : r.operator ≠ of "bw" := by rw [hlt]; decide
      rcases hnumber with hvalue | hmin | ⟨hop, _⟩
      · simp [hvalue, FloatNumber.le] at hle
      · simp [hmin, FloatNumber.le] at hle
      · exact hbw hop
    · rcases hnumber with hvalue | hmin | ⟨_, hnone⟩
      · simp [hvalue, FloatNumber.le] at hle
      · simp [hmin, FloatNumber.le] at hle
      · have hlt := hmax none hnone
        simp [FloatNumber.lt] at hlt

end RangeRule

/-- The check of a value: the rule is not read, or its range accepts the value. -/
theorem checkRangeRule_some_iff {value : FloatNumber} {rule : RuleValue} {multiplier : ℕ} :
    checkRangeRule (some value) rule multiplier = true ↔
      (∃ r, rule.range multiplier = some r ∧ r.Met value) ∨
        ∀ r, rule.range multiplier = some r → r.Misread value := by
  cases hrange : rule.range multiplier with
  | none => simp [checkRangeRule, hrange]
  | some r => simp [checkRangeRule, hrange, RangeRule.accepts_iff]

end WolfNas
