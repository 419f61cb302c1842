import WolfNas.Brush.SelectRules

/-!
# Which torrents a brush task deletes

A task deletes a torrent where all of its removal rules are met, or one of them.  The range check
that the rules share with the selection takes what it cannot read for met, so here it deletes.  What
the page of a torrent says may not be known; the rules about it are put off then.

## Main definitions

* `RemoveKey`, `RemoveRule`, `RemoveParams` — the rules, and what they look at.
* `RemoveRule.turn` — what becomes of one rule.
* `checkRemoveRule` — the decision.
* `RemoveRule.Met`, `RemoveRule.Misread` — a rule that is met, and one that only passes.
* `RemoveRule.Triggers` — the rule that a deletion goes back to.

## Main results

* `RemoveRule.turn_eq_met_iff` — a rule passes where it is met, and where it is misread.
* `RemoveRule.checkRemoveRule_or` — a deletion where one rule is enough.
* `RemoveRule.deletions_sound_iff` — when every deletion goes back to a rule that is met.
* `RemoveRule.deletes_of_unknown` — a deletion without the page is one with every page.
-/

namespace WolfNas

open Text

/-! ## The rules -/

/-- The rules, in the order in which they are tried. -/
inductive RemoveKey
  | time | hrTime | ratio | uploadsize | dltime | avgUpspeed | iatime | pendingTime | freespace | hr
  | aliveTime | upspeed | curUpspeed | trackerError
  deriving DecidableEq, Repr

/-- `BrushDeleteType`. -/
inductive BrushDeleteType
  | seedtime | hrseedtime | ratio | uploadsize | dltime | avgupspeed | iatime | pendingtime
  | freespace | hr | alivetime | upspeed | trackererror
  deriving DecidableEq, Repr

namespace RemoveKey

/-- `rule_checks`. -/
def all : List RemoveKey :=
  [time, hrTime, ratio, uploadsize, dltime, avgUpspeed, iatime, pendingTime, freespace, hr,
    aliveTime, upspeed, curUpspeed, trackerError]

/-- What a deletion by a rule is called. -/
def deleteType : RemoveKey → BrushDeleteType
  | time => .seedtime
  | hrTime => .hrseedtime
  | ratio => .ratio
  | uploadsize => .uploadsize
  | dltime => .dltime
  | avgUpspeed => .avgupspeed
  | iatime => .iatime
  | pendingTime => .pendingtime
  | freespace => .freespace
  | hr => .hr
  | aliveTime => .alivetime
  | upspeed | curUpspeed => .upspeed
  | trackerError => .trackererror

/-- The unit of the bounds. -/
def multiplier : RemoveKey → ℕ
  | time | hrTime | dltime | iatime | pendingTime => 3600
  | uploadsize | freespace => 1024 ^ 3
  | avgUpspeed | upspeed | curUpspeed => 1024
  | ratio | hr | aliveTime | trackerError => 1

/-- `REMOVE_ATTR_RULE_KEYS`, of the rules that are tried. -/
def needsAttr : RemoveKey → Bool
  | hr | hrTime => true
  | _ => false

theorem mem_all (key : RemoveKey) : key ∈ all := by
  cases key <;> decide

end RemoveKey

/-- The removal rules of a task; those that are missing are null, and the mode that is missing is
`and`. -/
structure RemoveRule where
  mode : RuleValue := .text (of "and")
  freestatus : RuleValue := .null
  get : RemoveKey → RuleValue

/-- What is known of a torrent. -/
structure RemoveParams where
  seedingTime : Option FloatNumber := none
  ratio : Option FloatNumber := none
  uploaded : Option FloatNumber := none
  dltime : Option FloatNumber := none
  avgUpspeed : Option FloatNumber := none
  upspeed : Option FloatNumber := none
  iatime : Option FloatNumber := none
  pendingTime : Option FloatNumber := none
  freespace : Option FloatNumber := none
  /-- `_calc_alive_hours(add_time)`. -/
  aliveHours : Option FloatNumber := none
  trackerError : Option Text := none
  torrentAttr : TorrentAttr := {}
  isCompleted : Bool := true

/-- The number that a range rule is about. -/
def RemoveParams.value (params : RemoveParams) : RemoveKey → Option FloatNumber
  | .time | .hrTime => params.seedingTime
  | .ratio => params.ratio
  | .uploadsize => params.uploaded
  | .dltime => params.dltime
  | .avgUpspeed => params.avgUpspeed
  | .iatime => params.iatime
  | .pendingTime => params.pendingTime
  | .freespace => params.freespace
  | .aliveTime => params.aliveHours
  | .upspeed | .curUpspeed => params.upspeed
  | .hr | .trackerError => none

/-- The decision; the rules that it goes back to. -/
inductive RemoveVerdict
  | keep
  | one (t : BrushDeleteType)
  | all (ts : List BrushDeleteType)
  deriving DecidableEq, Repr

/-- The torrent is deleted. -/
def RemoveVerdict.deletes : RemoveVerdict → Bool
  | keep => false
  | one _ | all _ => true

/-- What becomes of a rule. -/
inductive RemoveTurn
  | passedOver | unknown | met | unmet
  deriving DecidableEq, Repr

/-! ## The decision -/

/-- The check of a rule; none where there is no value. -/
def RemoveParams.check (params : RemoveParams) (rule : RuleValue) : RemoveKey → Option Bool
  | .hr => some (
      if rule = .text (of "HR") then params.torrentAttr.hr
      else if rule = .text (of "NOHR") then !params.torrentAttr.hr
      else true)
  | .trackerError => params.trackerError.map fun error =>
      if rule = .text (of "Y") then error ≠ [] else true
  | key => (params.value key).map fun value => checkRangeRule (some value) rule key.multiplier

namespace RemoveRule

variable (rules : RemoveRule) (params : RemoveParams) (attrUnknown : Bool)

/-- What becomes of one rule. -/
def turn (key : RemoveKey) : RemoveTurn :=
  if (rules.get key).isIgnored then .passedOver
  else if attrUnknown && key.needsAttr then .unknown
  else if key = .hrTime ∧ params.torrentAttr.hr = false then .passedOver
  else match params.check (rules.get key) key with
    | none => .unknown
    | some true => .met
    | some false => .unmet

/-- The loop over the rules. -/
def loop (mode : RuleValue) (turn : RemoveKey → RemoveTurn) (triggered : List BrushDeleteType) :
    List RemoveKey → RemoveVerdict
  | [] => if mode = .text (of "and") ∧ triggered ≠ [] then .all triggered else .keep
  | key :: keys =>
    match turn key with
    | .passedOver => loop mode turn triggered keys
    | .unknown | .unmet =>
      if mode = .text (of "and") then .keep else loop mode turn triggered keys
    | .met =>
      let triggered := triggered ++ [key.deleteType]
      if mode = .text (of "or") then
        match triggered with
        | [t] => .one t
        | ts => .all ts
      else loop mode turn triggered keys

/-- There is another rule than the one about the promotion. -/
def hasOtherRules : Bool := RemoveKey.all.any fun key => !(rules.get key).isIgnored

/-- A finished torrent that is still free is kept, and so is one where this is not known and all
rules must be met. -/
def freeEndGuard : Bool :=
  !rules.freestatus.isIgnored && params.isCompleted &&
    (!rules.hasOtherRules || (attrUnknown && rules.mode = .text (of "and")) ||
      (!attrUnknown && params.torrentAttr.free))

end RemoveRule

/-- `check_remove_rule`. -/
def checkRemoveRule (rules : RemoveRule) (params : RemoveParams) (attrUnknown : Bool) :
    RemoveVerdict :=
  if rules.freeEndGuard params attrUnknown then .keep
  else RemoveRule.loop rules.mode (rules.turn params attrUnknown) [] RemoveKey.all

namespace RemoveRule

variable {rules : RemoveRule} {params : RemoveParams} {attrUnknown : Bool}

/-! ## One rule is enough -/

/-- Where one rule is enough, the first one that passes decides. -/
theorem loop_or (turn : RemoveKey → RemoveTurn) (keys : List RemoveKey) :
    loop (.text (of "or")) turn [] keys =
      match keys.find? fun key => turn key = .met with
      | none => .keep
      | some key => .one key.deleteType := by
  induction keys with
  | nil => rfl
  | cons key keys ih =>
    have hmode : RuleValue.text (of "or") ≠ .text (of "and") := by decide
    cases hturn : turn key with
    | passedOver => simp [loop, hturn, ih]
    | unknown => simp [loop, hturn, ih, hmode]
    | unmet => simp [loop, hturn, ih, hmode]
    | met => simp [loop, hturn]

/-- **A deletion where one rule is enough.** -/
theorem checkRemoveRule_or (hmode : rules.mode = .text (of "or")) :
    checkRemoveRule rules params attrUnknown =
      if rules.freeEndGuard params attrUnknown then .keep
      else match RemoveKey.all.find? fun key => rules.turn params attrUnknown key = .met with
        | none => .keep
        | some key => .one key.deleteType := by
  rw [checkRemoveRule, hmode, loop_or]

/-! ## What a rule says -/

variable (rules params attrUnknown)

/-- The rule is looked at: it is on, and about something that is known. -/
def Considered (key : RemoveKey) : Prop :=
  (rules.get key).isIgnored = false ∧ ¬(attrUnknown = true ∧ key.needsAttr = true) ∧
    ¬(key = .hrTime ∧ params.torrentAttr.hr = false)

/-- The rule is met: its range has a bound that is a number, and the value is within; the rule is
about HR torrents and this is one, or about others and it is none; or it is on, and a tracker has
reported something. -/
def Met (key : RemoveKey) : Prop :=
  match key with
  | .hr => (rules.get key = .text (of "HR") ∧ params.torrentAttr.hr = true) ∨
      (rules.get key = .text (of "NOHR") ∧ params.torrentAttr.hr = false)
  | .trackerError => rules.get key = .text (of "Y") ∧ ∃ error ∈ params.trackerError, error ≠ []
  | key => ∃ value ∈ params.value key, ∃ r, (rules.get key).range key.multiplier = some r ∧
      r.Met value

/-- The rule only passes: its range has no bound, or one that is no number, or misreads the value;
or it is none of the words that the check knows. -/
def Misread (key : RemoveKey) : Prop :=
  match key with
  | .hr => rules.get key ≠ .text (of "HR") ∧ rules.get key ≠ .text (of "NOHR")
  | .trackerError => rules.get key ≠ .text (of "Y") ∧ params.trackerError ≠ none
  | key => ∃ value ∈ params.value key,
      ∀ r, (rules.get key).range key.multiplier = some r → r.Misread value

/-- A deletion goes back to the first rule that passes. -/
def Triggers (key : RemoveKey) : Prop :=
  rules.turn params attrUnknown key = .met ∧
    ∀ other ∈ RemoveKey.all.before key, rules.turn params attrUnknown other ≠ .met

variable {rules params attrUnknown}

/-- The check passes what meets the rule, and what the rule misreads. -/
theorem check_eq_true_iff {key : RemoveKey} :
    params.check (rules.get key) key = some true ↔
      rules.Met params key ∨ rules.Misread params key := by
  cases key with
  | hr =>
    by_cases hHR : rules.get .hr = .text (of "HR")
    · have hne : of "HR" ≠ of "NOHR" := by decide
      simp [RemoveParams.check, Met, Misread, hHR, hne]
    · by_cases hNOHR : rules.get .hr = .text (of "NOHR")
      · have hne : of "NOHR" ≠ of "HR" := by decide
        simp [RemoveParams.check, Met, Misread, hNOHR, hne]
      · simp [RemoveParams.check, Met, Misread, hHR, hNOHR]
  | trackerError =>
    cases herror : params.trackerError with
    | none => simp [RemoveParams.check, Met, Misread, herror]
    | some error =>
      by_cases hon : rules.get .trackerError = .text (of "Y")
      · simp [RemoveParams.check, Met, Misread, herror, hon]
      · simp [RemoveParams.check, Met, Misread, herror, hon]
  | time | hrTime | ratio | uploadsize | dltime | avgUpspeed | iatime | pendingTime | freespace
  | aliveTime | upspeed | curUpspeed =>
    simp only [RemoveParams.check, Met, Misread, Option.map_eq_some_iff, checkRangeRule_some_iff,
      Option.mem_def, ← exists_or, ← and_or_left]

/-- A rule is not misread where it is met. -/
theorem not_misread_of_met {key : RemoveKey} (h : rules.Met params key) :
    ¬rules.Misread params key := by
  cases key with
  | hr =>
    rintro ⟨hHR, hNOHR⟩
    rcases h with ⟨h, _⟩ | ⟨h, _⟩
    · exact hHR h
    · exact hNOHR h
  | trackerError =>
    rintro ⟨hoff, _⟩
    exact hoff h.1
  | time | hrTime | ratio | uploadsize | dltime | avgUpspeed | iatime | pendingTime | freespace
  | aliveTime | upspeed | curUpspeed =>
    obtain ⟨value, hvalue, r, hrange, hmet⟩ := h
    rintro ⟨value', hvalue', hmisread⟩
    obtain rfl : value = value' := Option.mem_unique hvalue hvalue'
    exact RangeRule.not_misread_of_met hmet (hmisread r hrange)

/-- **A rule passes** where it is looked at, and met or misread. -/
theorem turn_eq_met_iff {key : RemoveKey} :
    rules.turn params attrUnknown key = .met ↔
      rules.Considered params attrUnknown key ∧
        (rules.Met params key ∨ rules.Misread params key) := by
  rw [← check_eq_true_iff, turn, Considered]
  by_cases hoff : (rules.get key).isIgnored = true
  · simp [hoff]
  · by_cases hattr : attrUnknown = true ∧ key.needsAttr = true
    · simp [hoff, hattr]
    · by_cases htime : key = .hrTime ∧ params.torrentAttr.hr = false
      · obtain ⟨rfl, hhr⟩ := htime
        simp [hoff, hattr, hhr]
      · rw [if_neg hoff, if_neg (by simpa using hattr), if_neg htime]
        cases params.check (rules.get key) key with
        | none => simp
        | some b => cases b <;> simp [hoff, hattr, htime]

/-- The rule that a deletion goes back to is the one that is found. -/
theorem find?_eq_some_iff_triggers {key : RemoveKey} :
    RemoveKey.all.find? (fun key => rules.turn params attrUnknown key = .met) = some key ↔
      rules.Triggers params attrUnknown key := by
  simp [List.find?_eq_some_iff_before, RemoveKey.mem_all, Triggers]

/-- The first rule that passes is met, exactly if every rule that is looked at and misread comes
after one that is met. -/
theorem found_met_iff :
    (∀ key, RemoveKey.all.find? (fun key => rules.turn params attrUnknown key = .met) = some key →
        rules.Met params key) ↔
      ∀ key, rules.Considered params attrUnknown key → rules.Misread params key →
        ∃ other ∈ RemoveKey.all.before key, rules.Considered params attrUnknown other ∧
          rules.Met params other := by
  rw [List.find?_forall_iff]
  simp only [RemoveKey.mem_all, decide_eq_true_eq, turn_eq_met_iff, true_implies]
  constructor
  · intro h key hconsidered hmisread
    have hmet : ¬rules.Met params key := fun hmet => not_misread_of_met hmet hmisread
    obtain ⟨other, hbefore, ⟨hother, _⟩, hmet'⟩ := h key ⟨hconsidered, .inr hmisread⟩ hmet
    exact ⟨other, hbefore, hother, hmet'⟩
  · rintro h key ⟨hconsidered, hpasses⟩ hmet
    obtain ⟨other, hbefore, hother, hmet'⟩ := h key hconsidered (hpasses.resolve_left hmet)
    exact ⟨other, hbefore, ⟨hother, .inl hmet'⟩, hmet'⟩

/-- One rule about the ratio. -/
def ratioRule (bounds : Text) : RemoveRule where
  mode := .text (of "or")
  get
    | .ratio => .text bounds
    | _ => .null

/-- A torrent with a ratio. -/
def ratioParams (x : ℚ) : RemoveParams where
  ratio := some (.finite x)

/-- Where all rules must be met, what becomes of a rule that is not known does not matter for a
deletion: there is none. -/
theorem loop_and_congr {turn turn' : RemoveKey → RemoveTurn} {keys : List RemoveKey}
    {triggered : List BrushDeleteType} (hturn : ∀ key, turn key ≠ .unknown → turn' key = turn key)
    (h : (loop (.text (of "and")) turn triggered keys).deletes = true) :
    loop (.text (of "and")) turn' triggered keys = loop (.text (of "and")) turn triggered keys := by
  induction keys generalizing triggered with
  | nil => rfl
  | cons key keys ih =>
    cases hkey : turn key with
    | passedOver =>
      have hkey' : turn' key = .passedOver := (hturn key (by simp [hkey])).trans hkey
      simp only [loop, hkey, hkey'] at h ⊢
      exact ih h
    | unknown => simp [loop, hkey, RemoveVerdict.deletes] at h
    | unmet => simp [loop, hkey, RemoveVerdict.deletes] at h
    | met =>
      have hkey' : turn' key = .met := (hturn key (by simp [hkey])).trans hkey
      have hmode : RuleValue.text (of "and") ≠ .text (of "or") := by decide
      simp only [loop, hkey, hkey', if_neg hmode] at h ⊢
      exact ih h

/-- A rule that is decided without the page is decided so with every page. -/
theorem turn_eq_of_unknown {key : RemoveKey} (attr : TorrentAttr)
    (h : rules.turn params true key ≠ .unknown) :
    rules.turn { params with torrentAttr := attr } false key = rules.turn params true key := by
  by_cases hoff : (rules.get key).isIgnored = true
  · simp [turn, hoff]
  · by_cases hattr : key.needsAttr = true
    · simp [turn, hoff, hattr] at h
    · have htime : key ≠ .hrTime := by
        rintro rfl
        exact hattr rfl
      have hcheck : ({ params with torrentAttr := attr } : RemoveParams).check (rules.get key) key =
          params.check (rules.get key) key := by
        cases key with
        | hr => exact absurd rfl hattr
        | _ => rfl
      simp [turn, hoff, hattr, htime, hcheck]

/-- **A deletion without the page is one with every page**, where all rules must be met. -/
theorem deletes_of_unknown (hmode : rules.mode = .text (of "and"))
    (h : (checkRemoveRule rules params true).deletes = true) (attr : TorrentAttr) :
    (checkRemoveRule rules { params with torrentAttr := attr } false).deletes = true := by
  rw [checkRemoveRule] at h ⊢
  by_cases hguard : rules.freeEndGuard params true = true
  · simp [hguard, RemoveVerdict.deletes] at h
  · have hguard' :
        ¬rules.freeEndGuard { params with torrentAttr := attr } false = true := by
      simp only [freeEndGuard, hmode] at hguard ⊢
      simp at hguard ⊢
      intro hfree hcompleted
      simp [hguard hfree] at hcompleted
    rw [if_neg hguard, hmode] at h
    rw [if_neg hguard', hmode, loop_and_congr (fun key => turn_eq_of_unknown attr) h]
    exact h

/-- Two rules, about the ratio and about finished torrents that are no longer free. -/
def freeRatioRule : RemoveRule where
  freestatus := .text (of "Y")
  get
    | .ratio => .text (of "gt#2")
    | _ => .null

/-- A torrent in download is deleted for its ratio, whether it is free or not. -/
theorem deletes_freeRatioRule :
    (checkRemoveRule freeRatioRule
      { ratio := some (.finite 3), torrentAttr := { free := true }, isCompleted := false }
      false).deletes = true := by
  have hunknown : (checkRemoveRule freeRatioRule
      { ratio := some (.finite 3), isCompleted := false } true).deletes = true := by
    decide +kernel
  exact deletes_of_unknown rfl hunknown { free := true }

end RemoveRule

end WolfNas
