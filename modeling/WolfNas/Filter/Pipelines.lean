import WolfNas.Filter.Rules
import WolfNas.Lib.StableSort
import Mathlib.Data.List.Find

/-!
# The filter rules of two paths

Feeds and searches load the rules of a group on their own, and try them with engines of their own.
The search path drops blank lines of patterns and looks at the description as well.

## Main definitions

* `FilterTables` — the groups and the rules as they are stored.
* `FilterService.checkRules` — the path of the feeds.
* `ResultFilter.checkRules` — the path of the searches.
* `FilterTables.Plain` — what the rules of a group must be like for both paths to read the same.

## Main results

* `FilterTables.searched_eq_described` — the search path finds what the path of the feeds finds of
  the torrent with its description in the subtitle.
* `FilterTables.description_missed` — a description that only the search path looks at.
-/

namespace WolfNas

open Text

/-! ## What is stored -/

/-- A row of `CONFIG_FILTER_GROUP`. -/
structure FilterGroupRow where
  id : ℕ
  groupName : Option Text
  isDefault : Option Text
  deriving DecidableEq

/-- A row of `CONFIG_FILTER_RULES`. -/
structure FilterRuleRow where
  groupId : ℕ
  priority : Option Text
  include' : Option Text
  exclude : Option Text
  sizeLimit : Option Text
  note : Option Text
  originalLanguage : Option Text
  deriving DecidableEq

/-- The tables; keys are positive. -/
structure FilterTables where
  groups : List FilterGroupRow
  rules : List FilterRuleRow
  pos : ∀ g ∈ groups, g.id ≠ 0

/-- The lines of a text. -/
def linesOf (s : Text) : List Text := s.splitOn '\n'

/-- `s.replace("\r\n", "\n")`. -/
def dropReturns : Text → Text
  | [] => []
  | '\r' :: '\n' :: s => '\n' :: dropReturns s
  | c :: s => c :: dropReturns s

/-- `split_rule_patterns`. -/
def splitRulePatterns (raw : Text) : List Text :=
  ((linesOf (dropReturns raw)).map strip).filter (· ≠ [])

section Tables

variable (number : Option Text → ℤ) (t : FilterTables)

/-- `ORDER BY GROUP_ID, CAST(PRIORITY AS INTEGER)`. -/
def ruleLe (a b : FilterRuleRow) : Prop :=
  a.groupId < b.groupId ∨ a.groupId = b.groupId ∧ number a.priority ≤ number b.priority

instance : DecidableRel (ruleLe number) := by
  unfold ruleLe
  infer_instance

/-- `get_config_filter_rule`. -/
def FilterTables.getConfigFilterRule (groupid : ℕ) : List FilterRuleRow :=
  if groupid = 0 then t.rules.insertionSort (ruleLe number)
  else (t.rules.filter fun rule => rule.groupId = groupid).insertionSort (ruleLe number)

/-! ## The path of the feeds -/

namespace FilterService

/-- `get_rules`, a rule. -/
def ruleInfo (rule : FilterRuleRow) : FilterInfo where
  pri := if rule.priority.getD [] = [] then .number 0 else .text (rule.priority.getD [])
  includes := rule.include'.elim [] linesOf
  excludes := rule.exclude.elim [] linesOf
  size := rule.sizeLimit.getD []
  free := rule.note.getD []
  originalLanguage := rule.originalLanguage.getD []

/-- `get_rules`: of all rules, loaded at once, those of the group. -/
def getRules (groupid : ℕ) : List FilterInfo :=
  if groupid = 0 then []
  else ((t.getConfigFilterRule number 0).filter fun rule => rule.groupId = groupid).map ruleInfo

/-- `get_rule_groups`, of the default group or of an id. -/
def getRuleGroups (rulegroup : ℤ) : Option FilterGroupRow :=
  if rulegroup = 0 then t.groups.find? fun g => g.isDefault = some (of "Y")
  else t.groups.find? fun g => (g.id : ℤ) = rulegroup

/-- `check_rules`. -/
def checkRules (regex : Regex) (info : RuleMeta) (rulegroup : ℤ) : Bool × ℤ × Text :=
  if rulegroup = -1 then (true, 0, of "不过滤")
  else match getRuleGroups t rulegroup with
    | some group => FilterRuleEngine.checkRules regex info (group.groupName.getD [])
        (getRules number t group.id)
    | none =>
      if rulegroup = 0 then (true, 0, of "未配置过滤规则")
      else FilterRuleEngine.checkRules regex info [] []

end FilterService

/-! ## The path of the searches -/

namespace ResultFilter

/-- `FilterRuleEntity.from_orm` and `filters_from_rule_entities`, a rule; none where it raises. -/
def ruleInfo (rule : FilterRuleRow) : Option FilterInfo :=
  let priority := if rule.priority.getD [] = [] then some 0 else parseInt (rule.priority.getD [])
  priority.map fun pri =>
    { pri := .number pri
      includes := splitRulePatterns (rule.include'.getD [])
      excludes := splitRulePatterns (rule.exclude.getD [])
      size := rule.sizeLimit.getD []
      free := rule.note.getD []
      originalLanguage := rule.originalLanguage.getD [] }

/-- The group that `_get_rules` takes. -/
def getGroup (rulegroup : ℤ) : Option FilterGroupRow :=
  if rulegroup = 0 then t.groups.find? fun g => (g.isDefault.map upper) = some (of "Y")
  else t.groups.find? fun g => (g.id : ℤ) = rulegroup

/-- `_get_rules`. -/
def getRules (rulegroup : ℤ) : Option (Text × List FilterInfo) :=
  match getGroup t rulegroup with
  | none => some (of "未配置", [])
  | some group =>
    ((t.getConfigFilterRule number group.id).mapM ruleInfo).map fun filters =>
      (group.groupName.getD [], filters)

/-- The rules of a group on a torrent; none where it raises. -/
def checkRules (regex : Regex) (info : RuleMeta) (rulegroup : ℤ) : Option (Bool × ℤ × Text) :=
  (getRules number t rulegroup).map fun rules =>
    IndexerFilterEngine.checkRules regex info rules.1 rules.2

end ResultFilter

end Tables

/-! ## Lines of patterns -/

/-- A line, with a return at its end or without. -/
def Returned (l l' : Text) : Prop := l = l' ∨ l = l' ++ ['\r']

theorem strip_concat {l : Text} {c : Char} (hc : isSpace c = true) : strip (l ++ [c]) = strip l := by
  unfold strip
  rw [List.dropWhile_append]
  split_ifs with hempty
  · rw [List.isEmpty_iff.mp hempty]
    simp [List.dropWhile, hc]
  · rw [List.rdropWhile_concat_pos _ _ _ hc]

theorem Returned.strip_eq {l l' : Text} (h : Returned l l') : strip l = strip l' := by
  rcases h with rfl | rfl
  · rfl
  · exact strip_concat (by decide)

/-- The lines of a text are those of the text without returns, up to returns at their ends. -/
theorem returned_linesOf (s : Text) :
    List.Forall₂ Returned (linesOf s) (linesOf (dropReturns s)) := by
  have hcons : ∀ (c : Char) {ls ls' : List Text}, List.Forall₂ Returned ls ls' →
      List.Forall₂ Returned (ls.modifyHead (c :: ·)) (ls'.modifyHead (c :: ·)) := by
    intro c ls ls' h
    cases h with
    | nil => exact .nil
    | cons hhead htail =>
      refine .cons ?_ htail
      rcases hhead with rfl | rfl
      · exact .inl rfl
      · exact .inr rfl
  induction s using dropReturns.induct with
  | case1 => exact .cons (.inl rfl) .nil
  | case2 s ih =>
    have hlines : linesOf ('\r' :: '\n' :: s) = ['\r'] :: linesOf s := by
      simp [linesOf, List.splitOn_cons_eq_if_modifyHead]
    have hlines' : linesOf ('\n' :: dropReturns s) = [] :: linesOf (dropReturns s) := by
      simp [linesOf, List.splitOn_cons_eq_if_modifyHead]
    rw [hlines, dropReturns, hlines']
    exact .cons (.inr rfl) ih
  | case3 c s hnot ih =>
    have hdrop : dropReturns (c :: s) = c :: dropReturns s := by
      rw [dropReturns]
      exact hnot
    rw [hdrop]
    simp only [linesOf, List.splitOn_cons_eq_if_modifyHead]
    split_ifs
    · exact .cons (.inl rfl) ih
    · exact hcons c ih

/-- The patterns that are left when blank ones are dropped. -/
def proper (patterns : List Text) : List Text := (patterns.map strip).filter (· ≠ [])

theorem splitRulePatterns_eq (raw : Text) : splitRulePatterns raw = proper (linesOf raw) := by
  have hmap : (linesOf raw).map strip = (linesOf (dropReturns raw)).map strip := by
    have h := returned_linesOf raw
    generalize linesOf raw = ls at h ⊢
    generalize linesOf (dropReturns raw) = ls' at h ⊢
    induction h with
    | nil => rfl
    | cons hhead _ ih => rw [List.map_cons, List.map_cons, hhead.strip_eq, ih]
  rw [splitRulePatterns, proper, hmap]

theorem strip_strip (s : Text) : s.strip.strip = s.strip := strip_of_trimmed (trimmed_strip s)

section Patterns

variable (regex : Regex) (title : Text)

/-- Blank patterns are found everywhere. -/
theorem includesFound_proper (patterns : List Text) :
    includesFound regex title patterns = includesFound regex title (proper patterns) := by
  induction patterns with
  | nil => rfl
  | cons p patterns ih =>
    by_cases hblank : p.strip = []
    · have hproper : proper (p :: patterns) = proper patterns := by simp [proper, hblank]
      rw [hproper, ← ih, includesFound]
      split_ifs
      · rfl
      · rw [hblank, regex.blank]
    · have hp : p ≠ [] := by
        rintro rfl
        exact hblank rfl
      have hproper : proper (p :: patterns) = p.strip :: proper patterns := by
        simp [proper, hblank]
      rw [hproper, includesFound, includesFound, if_neg hp, if_neg hblank, strip_strip, ih]

/-- Whether all are found is the same without blank patterns. -/
theorem foundOf_proper (patterns : List Text) :
    (foundOf regex title patterns).map (·.all id) =
      (foundOf regex title (proper patterns)).map (·.all id) := by
  induction patterns with
  | nil => rfl
  | cons p patterns ih =>
    by_cases hblank : p.strip = []
    · have hproper : proper (p :: patterns) = proper patterns := by simp [proper, hblank]
      rw [hproper, ← ih, foundOf]
      split_ifs
      · rfl
      · rw [hblank, regex.blank]
        simp [Option.map_map, Function.comp_def]
    · have hp : p ≠ [] := by
        rintro rfl
        exact hblank rfl
      have hproper : proper (p :: patterns) = p.strip :: proper patterns := by
        simp [proper, hblank]
      rw [hproper, foundOf, foundOf, if_neg hp, if_neg hblank, strip_strip]
      cases regex.search p.strip title with
      | none => rfl
      | some found =>
        have hall := congrArg (Option.map (found && ·)) ih
        simpa [Option.map_map, Function.comp_def] using hall

/-- Nothing is looked for where all patterns are empty. -/
theorem foundOf_eq_nil {patterns : List Text} :
    foundOf regex title patterns = some [] ↔ ∀ p ∈ patterns, p = [] := by
  induction patterns with
  | nil => simp [foundOf]
  | cons p patterns ih =>
    rw [foundOf, List.forall_mem_cons]
    by_cases hp : p = []
    · rw [if_pos hp, ih, and_iff_right hp]
    · rw [if_neg hp]
      refine iff_of_false ?_ fun h => hp h.1
      intro h
      obtain ⟨found, -, hrest⟩ := Option.bind_eq_some_iff.mp h
      obtain ⟨rest, -, hcons⟩ := Option.map_eq_some_iff.mp hrest
      cases hcons

/-- Where a pattern is proper, or all are empty, blank ones do not matter. -/
theorem excluded_proper {patterns : List Text}
    (h : (∃ p ∈ patterns, p.strip ≠ []) ∨ ∀ p ∈ patterns, p = []) :
    excluded regex title patterns = excluded regex title (proper patterns) := by
  have hall := foundOf_proper regex title patterns
  have hempty : foundOf regex title patterns = some [] ↔
      foundOf regex title (proper patterns) = some [] := by
    rw [foundOf_eq_nil, foundOf_eq_nil]
    constructor
    · intro hnil p hp
      have hmem := (List.mem_filter.mp hp).1
      obtain ⟨q, hq, rfl⟩ := List.mem_map.mp hmem
      rw [hnil q hq]
      rfl
    · intro hnil
      rcases h with ⟨p, hp, hstrip⟩ | h
      · exact absurd (hnil p.strip (List.mem_filter.mpr ⟨List.mem_map_of_mem hp, by simpa using hstrip⟩))
          hstrip
      · exact h
  unfold excluded
  generalize foundOf regex title patterns = found at hall hempty ⊢
  generalize foundOf regex title (proper patterns) = found' at hall hempty ⊢
  cases found with
  | none =>
    cases found' with
    | none => rfl
    | some found' => cases hall
  | some found =>
    cases found' with
    | none => cases hall
    | some found' =>
      have hsame : found.all id = found'.all id := Option.some.inj hall
      have hnil : found = [] ↔ found' = [] := by simpa using hempty
      simp only [Option.map_some, Option.some.injEq, hsame]
      cases found with
      | nil => rw [hnil.mp rfl]
      | cons b found =>
        cases found' with
        | nil => cases hnil.mpr rfl
        | cons b' found' => rfl

end Patterns

/-! ## The two paths -/

/-- The priority is a number, and the lines to exclude are not all blank, unless they are all
empty. -/
def FilterRuleRow.Plain (rule : FilterRuleRow) : Prop :=
  (rule.priority.getD [] = [] ∨ (parseInt (rule.priority.getD [])).isSome) ∧
    ((∃ line ∈ linesOf (rule.exclude.getD []), line.strip ≠ []) ∨
      ∀ line ∈ linesOf (rule.exclude.getD []), line = [])

instance (rule : FilterRuleRow) : Decidable rule.Plain := by
  unfold FilterRuleRow.Plain
  infer_instance

/-- The rules of the group are plain, and a default group is marked by a capital letter. -/
def FilterTables.Plain (t : FilterTables) (rulegroup : ℤ) : Prop :=
  (rulegroup = 0 → ∀ g ∈ t.groups, g.isDefault.map upper = some (of "Y") →
    g.isDefault = some (of "Y")) ∧
    ∀ g ∈ FilterService.getRuleGroups t rulegroup, ∀ rule ∈ t.rules, rule.groupId = g.id →
      rule.Plain

instance (t : FilterTables) (rulegroup : ℤ) : Decidable (t.Plain rulegroup) := by
  unfold FilterTables.Plain
  infer_instance

/-- The torrent with its description at the end of the subtitle. -/
def RuleMeta.described (info : RuleMeta) : RuleMeta :=
  { info with
    subtitle := if info.description = [] then info.subtitle
      else if info.subtitle = [] then info.description
      else info.subtitle ++ ' ' :: info.description }

theorem RuleMeta.title_described (info : RuleMeta) : info.described.title = info.fullTitle := by
  unfold title fullTitle described title
  by_cases hdescription : info.description = []
  · simp only [if_pos hdescription]
  · by_cases hsubtitle : info.subtitle = []
    · simp [hdescription, hsubtitle]
    · simp [hdescription, hsubtitle]

section Loop

variable {regex : Regex} {title : Text} {info : RuleMeta}

/-- A rule that both paths read the same. -/
def SameRule (regex : Regex) (title : Text) (info : RuleMeta) (f f' : FilterInfo) : Prop :=
  f.pri.asInt = f'.pri.asInt ∧
    ∀ size, checkRule regex title info size f = checkRule regex title info size f'

/-- The loop goes the same way over rules that are read the same. -/
theorem checkLoop_eq {filters filters' : List FilterInfo}
    (h : List.Forall₂ (SameRule regex title info) filters filters') (orderSeq : ℤ)
    (groupMatch : Bool) (size : SizeValue) :
    checkLoop regex title info orderSeq groupMatch size filters =
      checkLoop regex title info orderSeq groupMatch size filters' := by
  induction h generalizing orderSeq groupMatch size with
  | nil => rfl
  | cons hrule _ ih =>
    obtain ⟨hpri, hcheck⟩ := hrule
    simp only [checkLoop, hpri, hcheck, ih]

/-- The rules do not look at the subtitle but in the title. -/
theorem checkLoop_described (filters : List FilterInfo) (orderSeq : ℤ) (groupMatch : Bool)
    (size : SizeValue) :
    checkLoop regex title info.described orderSeq groupMatch size filters =
      checkLoop regex title info orderSeq groupMatch size filters := by
  induction filters generalizing orderSeq groupMatch size with
  | nil => rfl
  | cons f filters ih =>
    have hcheck : checkRule regex title info.described size f =
        checkRule regex title info size f := rfl
    simp only [checkLoop, hcheck, ih]

/-- A plain rule is read the same by both paths. -/
theorem sameRule_of_plain {rule : FilterRuleRow} (h : rule.Plain) :
    ∃ f, ResultFilter.ruleInfo rule = some f ∧
      SameRule regex title info (FilterService.ruleInfo rule) f := by
  obtain ⟨hpriority, hexclude⟩ := h
  have hpri : ∃ pri, (if rule.priority.getD [] = [] then some 0
      else parseInt (rule.priority.getD [])) = some pri ∧
        (FilterService.ruleInfo rule).pri.asInt = some pri := by
    unfold FilterService.ruleInfo
    by_cases hblank : rule.priority.getD [] = []
    · exact ⟨0, by simp [hblank, Priority.asInt]⟩
    · obtain ⟨pri, hparse⟩ := Option.isSome_iff_exists.mp (hpriority.resolve_left hblank)
      exact ⟨pri, by simp [hblank, hparse, Priority.asInt]⟩
  obtain ⟨pri, hsearch, hfeed⟩ := hpri
  have hinfo : ResultFilter.ruleInfo rule = some
      { pri := .number pri
        includes := splitRulePatterns (rule.include'.getD [])
        excludes := splitRulePatterns (rule.exclude.getD [])
        size := rule.sizeLimit.getD []
        free := rule.note.getD []
        originalLanguage := rule.originalLanguage.getD [] } := by
    unfold ResultFilter.ruleInfo
    rw [hsearch]
    rfl
  refine ⟨_, hinfo, hfeed, ?_⟩
  intro size
  have hincludes : includesFound regex title (FilterService.ruleInfo rule).includes =
      includesFound regex title (splitRulePatterns (rule.include'.getD [])) := by
    rw [splitRulePatterns_eq, ← includesFound_proper]
    cases hinclude : rule.include' with
    | none => simp [FilterService.ruleInfo, hinclude, linesOf, includesFound]
    | some raw => simp [FilterService.ruleInfo, hinclude]
  have hexcludes : excluded regex title (FilterService.ruleInfo rule).excludes =
      excluded regex title (splitRulePatterns (rule.exclude.getD [])) := by
    rw [splitRulePatterns_eq, ← excluded_proper regex title hexclude]
    cases hexclude : rule.exclude with
    | none => simp [FilterService.ruleInfo, hexclude, linesOf, excluded, foundOf]
    | some raw => simp [FilterService.ruleInfo, hexclude]
  unfold checkRule titleMatches
  rw [hincludes, hexcludes]
  rfl

/-- The rules of a group, loaded by both paths. -/
theorem sameRules_of_plain {rules : List FilterRuleRow} (h : ∀ rule ∈ rules, rule.Plain) :
    ∃ filters, rules.mapM ResultFilter.ruleInfo = some filters ∧
      List.Forall₂ (SameRule regex title info) (rules.map FilterService.ruleInfo) filters := by
  induction rules with
  | nil => exact ⟨[], rfl, .nil⟩
  | cons rule rules ih =>
    obtain ⟨f, hf, hsame⟩ := sameRule_of_plain (h rule List.mem_cons_self)
    obtain ⟨filters, hfilters, hall⟩ := ih fun r hr => h r (List.mem_cons_of_mem rule hr)
    exact ⟨f :: filters, by simp [List.mapM_cons, hf, hfilters], .cons hsame hall⟩

end Loop

section Order

variable (number : Option Text → ℤ)

instance : IsTrans FilterRuleRow (ruleLe number) where
  trans a b c hab hbc := by
    unfold ruleLe at *
    omega

instance : Std.Total (ruleLe number) where
  total a b := by
    unfold ruleLe
    omega

/-- The rules of a group are in one order, however they are loaded. -/
theorem FilterTables.filter_getConfigFilterRule (t : FilterTables) {groupid : ℕ}
    (h : groupid ≠ 0) :
    ((t.getConfigFilterRule number 0).filter fun rule => rule.groupId = groupid) =
      t.getConfigFilterRule number groupid := by
  unfold getConfigFilterRule
  rw [if_pos rfl, if_neg h]
  exact StableSort.filter_insertionSort (ruleLe number) _ _

end Order

/-- Both paths take the same group. -/
theorem FilterTables.Plain.getGroup_eq {t : FilterTables} {rulegroup : ℤ} (h : t.Plain rulegroup) :
    ResultFilter.getGroup t rulegroup = FilterService.getRuleGroups t rulegroup := by
  unfold ResultFilter.getGroup FilterService.getRuleGroups
  split_ifs with hdefault
  · refine List.find?_congr ?_
    intro g hg
    rw [decide_eq_decide]
    constructor
    · exact h.1 hdefault g hg
    · intro hmarked
      rw [hmarked]
      decide
  · rfl

/-- **Two paths**: where the rules of the group are plain, the search path gives the verdict and
the order that the path of the feeds gives on the torrent with its description at the end of the
subtitle. -/
theorem FilterTables.searched_eq_described (number : Option Text → ℤ) (t : FilterTables)
    (regex : Regex) (info : RuleMeta) (rulegroup : ℤ) (h : t.Plain rulegroup) :
    (ResultFilter.checkRules number t regex info rulegroup).map (fun v => (v.1, v.2.1)) =
      some ((FilterService.checkRules number t regex info.described rulegroup).1,
        (FilterService.checkRules number t regex info.described rulegroup).2.1) := by
  unfold ResultFilter.checkRules ResultFilter.getRules FilterService.checkRules
  rw [h.getGroup_eq]
  cases hgroup : FilterService.getRuleGroups t rulegroup with
  | none =>
    split_ifs
    · rfl
    · rfl
    · rfl
  | some group =>
    have hfound : group ∈ t.groups ∧ rulegroup ≠ -1 := by
      unfold FilterService.getRuleGroups at hgroup
      split_ifs at hgroup with hdefault
      · exact ⟨List.mem_of_find?_eq_some hgroup, by omega⟩
      · have hid := List.find?_some hgroup
        simp only [decide_eq_true_eq] at hid
        exact ⟨List.mem_of_find?_eq_some hgroup, by omega⟩
    have hid : group.id ≠ 0 := t.pos group hfound.1
    have hplain : ∀ rule ∈ t.getConfigFilterRule number group.id, rule.Plain := by
      intro rule hrule
      unfold FilterTables.getConfigFilterRule at hrule
      rw [if_neg hid, List.mem_insertionSort, List.mem_filter, decide_eq_true_eq] at hrule
      exact h.2 group hgroup rule hrule.1 hrule.2
    obtain ⟨filters, hfilters, hsame⟩ :=
      @sameRules_of_plain regex info.fullTitle info _ hplain
    have hrules : FilterService.getRules number t group.id =
        (t.getConfigFilterRule number group.id).map FilterService.ruleInfo := by
      unfold FilterService.getRules
      rw [if_neg hid, t.filter_getConfigFilterRule number hid]
    rw [if_neg hfound.2]
    simp only [hfilters, hrules, Option.map_some, IndexerFilterEngine.checkRules,
      FilterRuleEngine.checkRules, checkRules, info.title_described, ← checkLoop_eq hsame,
      checkLoop_described]
    rfl

/-! ## A description -/

/-- A literal text as a pattern, case ignored. -/
def literalRegex : Regex where
  search p title := some (lower p <:+: lower title)
  blank title := by simp [lower]

/-- One group whose rule asks for a word, with a blank line after it. -/
def oneRule : FilterTables where
  groups := [⟨1, some (of "hd"), some (of "Y")⟩]
  rules := [⟨1, some (of "3"), some (of "hdr\n "), none, none, none, none⟩]
  pos := by simp

/-- A torrent with the word in its description. -/
def describedTorrent : RuleMeta where
  revString := of "Movie"
  description := of "HDR"

/-- Both paths find the word where the feeds have it in the subtitle. -/
theorem FilterTables.searched_eq_described_oneRule :
    (ResultFilter.checkRules (fun _ => 0) oneRule literalRegex describedTorrent 1).map
        (fun v => (v.1, v.2.1)) =
      some ((FilterService.checkRules (fun _ => 0) oneRule literalRegex
        describedTorrent.described 1).1,
        (FilterService.checkRules (fun _ => 0) oneRule literalRegex
          describedTorrent.described 1).2.1) :=
  FilterTables.searched_eq_described (fun _ => 0) oneRule literalRegex describedTorrent 1
    (by decide +kernel)

/-- **The description** is looked at by the search path only. -/
theorem FilterTables.description_missed :
    ¬∀ number t regex info rulegroup,
      (ResultFilter.checkRules number t regex info rulegroup).map (fun v => (v.1, v.2.1)) =
        some ((FilterService.checkRules number t regex info rulegroup).1,
          (FilterService.checkRules number t regex info rulegroup).2.1) := by
  intro h
  have hsame := h (fun _ => 0) oneRule literalRegex describedTorrent 1
  revert hsame
  decide +kernel

end WolfNas
