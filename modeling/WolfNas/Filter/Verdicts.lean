import WolfNas.Lib.FirstFound
import WolfNas.Filter.Rules
import Mathlib.Order.Bounds.Basic

/-!
# The verdict of a group of rules

A torrent is let through with the highest priority among the rules that it meets.  The engines take
the first rule that passes: bounds that are no numbers read as zero, a size that is no number too,
and once a rule has read the size as zero the others do not look at it.  A group of which every rule
raises lets everything through.

## Main definitions

* `Holds` — a torrent meets a rule.
* `Correct` — the verdict that a group is to have.
* `Passes`, `Evaluated` — a rule passes, and a rule does not raise.

## Main results

* `checkLoop_cons_of_not_passes` — one turn of the loop.
* `Passes.of_holds` — what holds passes.
* `checkRules_correct_iff` — when the verdict is as it is to be.
* `engines_correct_iff` — the same of the two engines.
-/

namespace WolfNas

open Text

/-! ## What a rule asks for -/

/-- The priority that a rule gives. -/
def FilterInfo.priority (f : FilterInfo) : ℤ := 100 - f.pri.asInt.getD 0

/-- The bounds of a size are blank or numbers. -/
def BoundsRead (sizes : Text) : Prop :=
  ∀ part ∈ (sizes.splitOn ',').take 2, strip part = [] ∨ numericValue part ≠ none

/-- A size is a number, or a text that is one. -/
def SizeValue.Reads : SizeValue → Prop
  | number _ => True
  | text t => t = [] ∨ t.isDigit = true ∨
      ∃ p ∈ decimalPart (upper (t.filter fun c => c ≠ ',' ∧ c ≠ ' ')),
        p.2.dropWhile (· ∈ of "KMGTPI") ∈ [[], ['B'], ['\n'], ['B', '\n']]

section Rule

variable (regex : Regex) (title : Text) (info : RuleMeta)

/-- The condition on the size can be evaluated, and holds: the size is not known, or within the
bounds. -/
def SizeHolds (f : FilterInfo) : Prop :=
  f.size = [] ∨ (BoundsRead f.size ∧ info.size.Reads ∧
    (info.size.truthy = true → sizeFits info f.size (numFilesize info.size) = true))

/-- A rule can be evaluated, and its conditions hold. -/
def Holds (f : FilterInfo) : Prop :=
  f.pri.asInt ≠ none ∧ titleMatches regex title info f = some true ∧
    promotionMissed info f.free = some false ∧ SizeHolds info f

/-- The verdict is a match if the group is empty, or a rule holds; its priority is then the highest
of the rules that hold. -/
def Correct (filters : List FilterInfo) (verdict : Bool × ℤ × Text) : Prop :=
  (verdict.1 = true ↔ filters = [] ∨ ∃ f ∈ filters, Holds regex title info f) ∧
    (filters ≠ [] → verdict.1 = true →
      IsGreatest {p | ∃ f ∈ filters, Holds regex title info f ∧ f.priority = p} verdict.2.1)

/-! ## What a rule does -/

/-- A rule does not raise. -/
def Evaluated (f : FilterInfo) : Prop :=
  f.pri.asInt ≠ none ∧ titleMatches regex title info f ≠ none ∧ promotionMissed info f.free ≠ none

instance (f : FilterInfo) : Decidable (Evaluated regex title info f) :=
  inferInstanceAs (Decidable (_ ∧ _))

/-- A rule reads the size of the torrent. -/
def Measures (f : FilterInfo) : Prop :=
  f.pri.asInt ≠ none ∧ titleMatches regex title info f = some true ∧ f.size ≠ [] ∧
    info.size.truthy = true

instance (f : FilterInfo) : Decidable (Measures regex title info f) :=
  inferInstanceAs (Decidable (_ ∧ _))

/-- The size of the torrent as some rules leave it. -/
def sizeAfter (before : List FilterInfo) : SizeValue :=
  if ∃ f ∈ before, Measures regex title info f then .number (numFilesize info.size) else info.size

/-- The size does not keep a rule from passing. -/
def SizePasses (size : SizeValue) (f : FilterInfo) : Prop :=
  f.size = [] ∨ size.truthy = false ∨ sizeFits info f.size (numFilesize size) = true

instance (size : SizeValue) (f : FilterInfo) : Decidable (SizePasses info size f) :=
  inferInstanceAs (Decidable (_ ∨ _))

/-- A rule passes after others. -/
def Passes (before : List FilterInfo) (f : FilterInfo) : Prop :=
  f.pri.asInt ≠ none ∧ titleMatches regex title info f = some true ∧
    promotionMissed info f.free = some false ∧
    SizePasses info (sizeAfter regex title info before) f

variable {regex title info}

theorem checkRule_eq_failed_iff {size : SizeValue} {f : FilterInfo} :
    (checkRule regex title info size f).1 = .failed ↔
      titleMatches regex title info f = none ∨ promotionMissed info f.free = none := by
  unfold checkRule
  cases titleMatches regex title info f with
  | none => simp
  | some found =>
    cases promotionMissed info f.free with
    | none => simp
    | some missed =>
      simp only [reduceCtorEq, or_false, iff_false]
      split_ifs <;> simp

theorem checkRule_eq_matched_iff {size : SizeValue} {f : FilterInfo} :
    (checkRule regex title info size f).1 = .matched ↔
      titleMatches regex title info f = some true ∧ promotionMissed info f.free = some false ∧
        SizePasses info size f := by
  unfold checkRule SizePasses
  cases titleMatches regex title info f with
  | none => simp
  | some found =>
    cases promotionMissed info f.free with
    | none => simp
    | some missed =>
      cases found <;> cases missed <;> cases hsize : size.truthy <;> by_cases hbounds : f.size = [] <;>
        simp [hbounds]

/-! ## The size of the torrent -/

theorem decimalPart_nonneg {s : Text} {p : ℚ × Text} (h : decimalPart s = some p) : 0 ≤ p.1 := by
  unfold decimalPart at h
  simp only at h
  split_ifs at h
  split at h
  · split_ifs at h
    · obtain rfl := Option.some.inj h
      positivity
    · obtain rfl := Option.some.inj h
      positivity
  · obtain rfl := Option.some.inj h
    positivity

theorem roundHalfEven_nonneg {x : ℚ} (h : 0 ≤ x) : 0 ≤ roundHalfEven x := by
  have hfloor : 0 ≤ ⌊x⌋ := Int.floor_nonneg.mpr h
  unfold roundHalfEven
  split_ifs <;> omega

theorem numFilesize_nonneg (size : SizeValue) : 0 ≤ numFilesize size := by
  cases size with
  | number n => exact le_max_right n 0
  | text t =>
    simp only [numFilesize]
    split_ifs
    · positivity
    · split
      · next x rest hpart =>
        split_ifs
        · refine roundHalfEven_nonneg (mul_nonneg ?_ (by positivity))
          exact decimalPart_nonneg hpart
        · exact le_rfl
      · exact le_rfl

/-- A size that was read reads as itself. -/
theorem numFilesize_number_numFilesize (size : SizeValue) :
    numFilesize (.number (numFilesize size)) = numFilesize size :=
  max_eq_left (numFilesize_nonneg size)

/-- What a rule leaves of the size. -/
theorem checkRule_snd (size : SizeValue) (f : FilterInfo) :
    (checkRule regex title info size f).2 =
      if titleMatches regex title info f = some true ∧ f.size ≠ [] ∧ size.truthy = true then
        .number (numFilesize size) else size := by
  unfold checkRule
  cases titleMatches regex title info f with
  | none => simp
  | some found =>
    cases promotionMissed info f.free with
    | none => cases found <;> simp
    | some missed => cases found <;> simp

/-- One rule more leaves the size as `sizeAfter` says. -/
theorem sizeAfter_concat {before : List FilterInfo} {f : FilterInfo} (hpri : f.pri.asInt ≠ none) :
    (checkRule regex title info (sizeAfter regex title info before) f).2 =
      sizeAfter regex title info (before ++ [f]) := by
  rw [checkRule_snd]
  by_cases hbefore : ∃ g ∈ before, Measures regex title info g
  · have hafter : ∃ g ∈ before ++ [f], Measures regex title info g := by
      obtain ⟨g, hg, hmeasures⟩ := hbefore
      exact ⟨g, List.mem_append_left [f] hg, hmeasures⟩
    rw [sizeAfter, if_pos hbefore, sizeAfter, if_pos hafter, numFilesize_number_numFilesize, ite_self]
  · have hafter : (∃ g ∈ before ++ [f], Measures regex title info g) ↔
        titleMatches regex title info f = some true ∧ f.size ≠ [] ∧ info.size.truthy = true := by
      constructor
      · rintro ⟨g, hg, hmeasures⟩
        rcases List.mem_append.mp hg with hg | hg
        · exact absurd ⟨g, hg, hmeasures⟩ hbefore
        · obtain rfl : g = f := by simpa using hg
          exact hmeasures.2
      · intro h
        exact ⟨f, by simp, hpri, h⟩
    rw [sizeAfter, if_neg hbefore, sizeAfter]
    simp only [hafter]

/-- A rule without a priority leaves the size alone. -/
theorem sizeAfter_concat_of_pri {before : List FilterInfo} {f : FilterInfo}
    (hpri : f.pri.asInt = none) :
    sizeAfter regex title info (before ++ [f]) = sizeAfter regex title info before := by
  have hmeasures : ¬Measures regex title info f := fun h => h.1 hpri
  simp [sizeAfter, or_and_right, exists_or, hmeasures]

/-- What holds passes after any rules. -/
theorem Passes.of_holds {before : List FilterInfo} {f : FilterInfo} (h : Holds regex title info f) :
    Passes regex title info before f := by
  obtain ⟨hpri, htitle, hfree, hsize⟩ := h
  refine ⟨hpri, htitle, hfree, ?_⟩
  rcases hsize with hblank | ⟨_, _, hfits⟩
  · exact .inl hblank
  · unfold sizeAfter SizePasses
    by_cases hbefore : ∃ g ∈ before, Measures regex title info g
    · obtain ⟨g, _, _, _, _, htruthy⟩ := hbefore
      rw [if_pos ⟨g, ‹_›, ‹_›, ‹_›, ‹_›, htruthy⟩, numFilesize_number_numFilesize]
      exact .inr (.inr (hfits htruthy))
    · rw [if_neg hbefore]
      by_cases htruthy : info.size.truthy = true
      · exact .inr (.inr (hfits htruthy))
      · exact .inr (.inl (by simpa using htruthy))

/-! ## The loop -/

variable {orderSeq : ℤ} {groupMatch : Bool} {before : List FilterInfo}

/-- The first rule that passes is taken. -/
theorem checkLoop_cons_of_passes {f : FilterInfo} {filters : List FilterInfo}
    (h : Passes regex title info before f) :
    checkLoop regex title info orderSeq groupMatch (sizeAfter regex title info before) (f :: filters)
      = (true, f.priority) := by
  obtain ⟨hpri, hmatched⟩ := h
  obtain ⟨pri, hpri⟩ := Option.ne_none_iff_exists'.mp hpri
  have houtcome := checkRule_eq_matched_iff.mpr hmatched
  obtain ⟨size, hrule⟩ : ∃ size, checkRule regex title info (sizeAfter regex title info before) f =
      (.matched, size) := ⟨_, Prod.ext houtcome rfl⟩
  simp [checkLoop, hpri, hrule, FilterInfo.priority]

/-- **One turn of the loop**: a rule that does not pass is left behind; if it does not raise, there
is a rule that was missed. -/
theorem checkLoop_cons_of_not_passes {f : FilterInfo} {filters : List FilterInfo}
    (h : ¬Passes regex title info before f) :
    ∃ orderSeq', checkLoop regex title info orderSeq groupMatch (sizeAfter regex title info before)
        (f :: filters) =
      checkLoop regex title info orderSeq' (groupMatch && !decide (Evaluated regex title info f))
        (sizeAfter regex title info (before ++ [f])) filters := by
  cases hpri : f.pri.asInt with
  | none =>
    have hevaluated : ¬Evaluated regex title info f := fun hevaluated => hevaluated.1 hpri
    refine ⟨orderSeq, ?_⟩
    simp [checkLoop, hpri, sizeAfter_concat_of_pri hpri, hevaluated]
  | some pri =>
    have hpri' : f.pri.asInt ≠ none := by simp [hpri]
    have hsize : (checkRule regex title info (sizeAfter regex title info before) f).2 =
        sizeAfter regex title info (before ++ [f]) := sizeAfter_concat hpri'
    refine ⟨100 - pri, ?_⟩
    rcases hrule : checkRule regex title info (sizeAfter regex title info before) f with
      ⟨outcome, size⟩
    rw [hrule] at hsize
    cases outcome with
    | matched =>
      have houtcome : (checkRule regex title info (sizeAfter regex title info before) f).1 =
        .matched := by rw [hrule]
      exact absurd ⟨hpri', checkRule_eq_matched_iff.mp houtcome⟩ h
    | missed =>
      have hevaluated : Evaluated regex title info f := by
        refine ⟨hpri', ?_⟩
        have hfailed : ¬(checkRule regex title info (sizeAfter regex title info before) f).1 =
          .failed := by simp [hrule]
        rwa [checkRule_eq_failed_iff, not_or] at hfailed
      simp only [checkLoop, hpri, hrule]
      simp [hevaluated, ← hsize]
    | failed =>
      have hevaluated : ¬Evaluated regex title info f := by
        rintro ⟨_, htitle, hfree⟩
        have houtcome : (checkRule regex title info (sizeAfter regex title info before) f).1 =
          .failed := by rw [hrule]
        rcases checkRule_eq_failed_iff.mp houtcome with h | h
        · exact htitle h
        · exact hfree h
      simp only [checkLoop, hpri, hrule]
      simp [hevaluated, ← hsize]

/-- The loop takes the first rule that passes. -/
theorem checkLoop_of_passes {l r : List FilterInfo} {f : FilterInfo}
    (hpasses : Passes regex title info (before ++ l) f)
    (hfirst : ∀ l' g r', l = l' ++ g :: r' → ¬Passes regex title info (before ++ l') g) :
    checkLoop regex title info orderSeq groupMatch (sizeAfter regex title info before)
      (l ++ f :: r) = (true, f.priority) := by
  induction l generalizing before orderSeq groupMatch with
  | nil =>
    rw [List.append_nil] at hpasses
    exact checkLoop_cons_of_passes hpasses
  | cons g l ih =>
    have hg : ¬Passes regex title info before g := by
      have h := hfirst [] g l rfl
      rwa [List.append_nil] at h
    obtain ⟨orderSeq', hturn⟩ := checkLoop_cons_of_not_passes hg
    rw [List.cons_append, hturn]
    refine ih ?_ ?_
    · rwa [List.append_assoc, List.singleton_append]
    · intro l' g' r' hl
      have h := hfirst (g :: l') g' r' (by rw [hl, List.cons_append])
      rwa [List.append_assoc, List.singleton_append]

/-- Where no rule passes, the loop ends with a match only if every rule raised. -/
theorem checkLoop_of_forall_not_passes {filters : List FilterInfo}
    (h : ∀ l f r, filters = l ++ f :: r → ¬Passes regex title info (before ++ l) f) :
    (checkLoop regex title info orderSeq groupMatch (sizeAfter regex title info before)
      filters).1 = (groupMatch && filters.all fun f => !decide (Evaluated regex title info f)) := by
  induction filters generalizing before orderSeq groupMatch with
  | nil => cases groupMatch <;> rfl
  | cons f filters ih =>
    have hf : ¬Passes regex title info before f := by
      have hf := h [] f filters rfl
      rwa [List.append_nil] at hf
    obtain ⟨orderSeq', hturn⟩ := checkLoop_cons_of_not_passes hf
    rw [hturn, ih, List.all_cons, Bool.and_assoc]
    intro l g r hl
    have hg := h (f :: l) g r (by rw [hl, List.cons_append])
    rwa [List.append_assoc, List.singleton_append]

variable (regex title info)

/-- The first rule of a group that passes. -/
def PassesFirst (filters : List FilterInfo) (f : FilterInfo) : Prop :=
  ∃ l r, filters = l ++ f :: r ∧ Passes regex title info l f ∧
    ∀ l' g r', l = l' ++ g :: r' → ¬Passes regex title info l' g

/-- The rules of a group are such that the verdict is right: it is empty or some rule does not
raise, and the first rule that passes has the highest priority of the rules that hold. -/
def Sorted (filters : List FilterInfo) : Prop :=
  (filters ≠ [] → ∃ f ∈ filters, Evaluated regex title info f) ∧
    ∀ f, PassesFirst regex title info filters f →
      IsGreatest {p | ∃ g ∈ filters, Holds regex title info g ∧ g.priority = p} f.priority

variable {regex title info}

/-- A rule that passes does not raise. -/
theorem Passes.evaluated {f : FilterInfo} (h : Passes regex title info before f) :
    Evaluated regex title info f := by
  obtain ⟨hpri, htitle, hfree, _⟩ := h
  exact ⟨hpri, by simp [htitle], by simp [hfree]⟩

/-- The loop over a group takes the first rule that passes. -/
theorem PassesFirst.checkLoop_eq {filters : List FilterInfo} {f : FilterInfo}
    (h : PassesFirst regex title info filters f) :
    checkLoop regex title info 0 true info.size filters = (true, f.priority) := by
  obtain ⟨l, r, rfl, hpasses, hfirst⟩ := h
  have hloop : checkLoop regex title info 0 true (sizeAfter regex title info []) (l ++ f :: r) =
      (true, f.priority) := checkLoop_of_passes hpasses hfirst
  simpa [sizeAfter] using hloop

/-- What holds passes, so some rule passes first. -/
theorem exists_passesFirst {filters : List FilterInfo} {f : FilterInfo} (hf : f ∈ filters)
    (h : Holds regex title info f) : ∃ g, PassesFirst regex title info filters g := by
  obtain ⟨l, r, hsplit⟩ := List.append_of_mem hf
  obtain ⟨l', g, r', hfilters, hpasses, hfirst⟩ :=
    List.exists_first_split ⟨l, f, r, hsplit, Passes.of_holds h⟩
  exact ⟨g, l', r', hfilters, hpasses, hfirst⟩

/-- Where no rule passes, the verdict is a match only if every rule raised. -/
theorem checkLoop_of_not_passesFirst {filters : List FilterInfo}
    (h : ¬∃ f, PassesFirst regex title info filters f) :
    (checkLoop regex title info 0 true info.size filters).1 = true ↔
      ¬∃ f ∈ filters, Evaluated regex title info f := by
  have hnone : ∀ l f r, filters = l ++ f :: r → ¬Passes regex title info ([] ++ l) f := by
    intro l f r hsplit hpasses
    obtain ⟨l', g, r', hfilters, hg, hfirst⟩ :=
      List.exists_first_split ⟨l, f, r, hsplit, hpasses⟩
    exact h ⟨g, l', r', hfilters, hg, hfirst⟩
  have hloop : (checkLoop regex title info 0 true (sizeAfter regex title info []) filters).1 =
      (true && filters.all fun f => !decide (Evaluated regex title info f)) :=
    checkLoop_of_forall_not_passes hnone
  have hsize : sizeAfter regex title info [] = info.size := by simp [sizeAfter]
  rw [hsize] at hloop
  simp [hloop]

variable (regex title info)

/-- **The verdict is right** exactly if the group is empty or some rule does not raise, and the
first rule that passes has the highest priority of the rules that hold. -/
theorem checkRules_correct_iff (groupName : Text) (filters : List FilterInfo) :
    Correct regex title info filters (checkRules regex title info groupName filters) ↔
      Sorted regex title info filters := by
  by_cases hpasses : ∃ f, PassesFirst regex title info filters f
  · obtain ⟨f, hf⟩ := hpasses
    have hloop := hf.checkLoop_eq
    constructor
    · rintro ⟨_, hgreatest⟩
      constructor
      · intro _
        obtain ⟨l, r, rfl, hpasses, _⟩ := hf
        exact ⟨f, by simp, hpasses.evaluated⟩
      · intro g hg
        have hne : filters ≠ [] := by
          obtain ⟨l, r, rfl, _⟩ := hf
          simp
        -- the loop gives the priority of both
        have hpriority : g.priority = f.priority :=
          congrArg Prod.snd (hg.checkLoop_eq.symm.trans hloop)
        rw [hpriority]
        simpa [checkRules, hloop] using hgreatest hne (by simp [checkRules, hloop])
    · rintro ⟨_, hfirst⟩
      have hgreatest := hfirst f hf
      obtain ⟨g, hg, hholds, _⟩ := hgreatest.1
      constructor
      · simp only [checkRules, hloop, true_iff]
        exact .inr ⟨g, hg, hholds⟩
      · intro _ _
        simpa [checkRules, hloop] using hgreatest
  · have hholds : ¬∃ f ∈ filters, Holds regex title info f := by
      rintro ⟨f, hf, hholds⟩
      exact hpasses (exists_passesFirst hf hholds)
    have hverdict : (checkRules regex title info groupName filters).1 = true ↔
        ¬∃ f ∈ filters, Evaluated regex title info f := checkLoop_of_not_passesFirst hpasses
    rw [Correct, Sorted, hverdict, or_iff_left hholds]
    constructor
    · rintro ⟨hmatch, _⟩
      constructor
      · intro hne
        by_contra hraised
        exact hne (hmatch.mp hraised)
      · intro f hf
        exact absurd ⟨f, hf⟩ hpasses
    · rintro ⟨hevaluated, _⟩
      constructor
      · constructor
        · intro hraised
          by_contra hne
          exact hraised (hevaluated hne)
        · rintro rfl ⟨f, hf, _⟩
          exact absurd hf List.not_mem_nil
      · intro hne hraised
        exact absurd (hevaluated hne) hraised

end Rule

/-- **The verdicts of the two engines**, that read a title with and without its description. -/
theorem engines_correct_iff (regex : Regex) (info : RuleMeta) (groupName : Text)
    (filters : List FilterInfo) :
    (Correct regex info.title info filters
        (FilterRuleEngine.checkRules regex info groupName filters) ↔
      Sorted regex info.title info filters) ∧
    (Correct regex info.fullTitle info filters
        (IndexerFilterEngine.checkRules regex info groupName filters) ↔
      Sorted regex info.fullTitle info filters) :=
  ⟨checkRules_correct_iff regex info.title info groupName filters,
    checkRules_correct_iff regex info.fullTitle info groupName filters⟩

/-! ## A group that raises -/

/-- The one rule of the group raises, and the torrent is let through. -/
theorem not_correct_unclosed :
    ¬∀ (regex : Regex) (info : RuleMeta) (groupName : Text) (filters : List FilterInfo),
      Correct regex info.title info filters
          (FilterRuleEngine.checkRules regex info groupName filters) ∧
        Correct regex info.fullTitle info filters
          (IndexerFilterEngine.checkRules regex info groupName filters) := by
  intro h
  have hcorrect := (h unclosedRegex { revString := of "Movie" } []
    [{ pri := .number 1, includes := [of "("] }]).1.1
  rcases hcorrect.mp (by decide +kernel) with hnil | ⟨f, hf, _, htitle, _⟩
  · cases hnil
  · obtain rfl := List.mem_singleton.mp hf
    revert htitle
    decide +kernel

end WolfNas
