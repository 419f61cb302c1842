import WolfNas.Brush.TorrentPage

/-!
# Which torrents a brush task stops

A round tries the stop rules on every torrent of the task.  The rule about the end of the free
period looks at what the site says of the torrent.  What the site says is only fetched where the
rule is `Y`, but the rule is on for every other word too, and what was not fetched reads as not
free.

## Main definitions

* `StopKey`, `StopRule`, `StopParams` — the rules, and what they look at.
* `checkStopRule` — the decision.
* `getTorrentAttr` — the attributes that a round has of a torrent.
* `StopRound.stopTaskTorrents` — the torrents that a round stops.
* `StopRound.SaysFreeEnded` — the site was asked and says that the torrent is no longer free.
* `StopRound.Reached`, `StopRound.Blind` — the rule is tried, without the site having said anything.

## Main results

* `checkStopRule_eq_freeend_iff` — when the end of the free period is what stops a torrent.
* `StopRound.stops_sound_iff` — when every such stop goes back to what the site says.
-/

namespace WolfNas

open Text

/-! ## The rules -/

/-- The rules, in the order in which they are tried. -/
inductive StopKey
  | ratio | uploadsize | seedtime | avgUpspeed | stopfree
  deriving DecidableEq, Repr

/-- `BrushStopType`. -/
inductive BrushStopType
  | ratio | uploadsize | seedtime | avgupspeed | freeend
  deriving DecidableEq, Repr

namespace StopKey

/-- `rule_checks`. -/
def all : List StopKey := [ratio, uploadsize, seedtime, avgUpspeed, stopfree]

/-- What a stop by a rule is called. -/
def stopType : StopKey → BrushStopType
  | ratio => .ratio
  | uploadsize => .uploadsize
  | seedtime => .seedtime
  | avgUpspeed => .avgupspeed
  | stopfree => .freeend

/-- The unit of the bounds. -/
def multiplier : StopKey → ℕ
  | ratio | stopfree => 1
  | uploadsize => 1024 ^ 3
  | seedtime => 3600
  | avgUpspeed => 1024

end StopKey

/-- The stop rules of a task; those that are missing are null. -/
abbrev StopRule := StopKey → RuleValue

/-- What is known of a torrent. -/
structure StopParams where
  ratio : Option FloatNumber := none
  uploaded : Option FloatNumber := none
  seedingTime : Option FloatNumber := none
  avgUpspeed : Option FloatNumber := none
  free : Bool := false
  isCompleted : Bool := false

/-- The number that a range rule is about. -/
def StopParams.value (params : StopParams) : StopKey → Option FloatNumber
  | .ratio => params.ratio
  | .uploadsize => params.uploaded
  | .seedtime => params.seedingTime
  | .avgUpspeed => params.avgUpspeed
  | .stopfree => none

/-- A rule is on, looked at, and passes. -/
def StopParams.stops (params : StopParams) (rules : StopRule) (attrUnknown : Bool)
    (key : StopKey) : Bool :=
  !(rules key).isIgnored &&
    if key = .stopfree then !params.isCompleted && !attrUnknown && !params.free
    else checkRangeRule (params.value key) (rules key) key.multiplier

/-- `check_stop_rule`. -/
def checkStopRule (rules : StopRule) (params : StopParams) (attrUnknown : Bool) :
    Option BrushStopType :=
  (StopKey.all.find? (params.stops rules attrUnknown)).map StopKey.stopType

/-! ## A round -/

/-- What is known of the site of a task. -/
inductive SiteInfo
  | missing
  | dict
  /-- Not a dictionary. -/
  | other
  deriving DecidableEq

/-- A torrent of the task in the downloader, with its rows. -/
structure StopTorrent where
  id : Text
  paused : Bool := false
  isCompleted : Bool := false
  ratio : Option FloatNumber := none
  uploaded : Option FloatNumber := none
  seedingTime : Option FloatNumber := none
  avgUpspeed : Option FloatNumber := none
  /-- Blank where there is none. -/
  enclosure : Text := []
  pageUrl : Text := []
  deriving DecidableEq

/-- What a round of a task looks at. -/
structure StopRound where
  engine : AttrEngine
  /-- The address of the page of a torrent; none where it raises. -/
  detailUrl : Text → Option Text
  running : Bool
  siteInfo : SiteInfo
  hasDownloader : Bool
  rules : StopRule
  /-- The torrents that have a row; none where the downloader does not answer. -/
  torrents : Option (List StopTorrent)

/-- The address that the attributes are read from. -/
def StopTorrent.attrUrl (t : StopTorrent) : Text := if t.pageUrl ≠ [] then t.pageUrl else t.enclosure

/-- What the rules look at, of a torrent with these attributes. -/
def StopTorrent.params (t : StopTorrent) (attr : Option TorrentAttr) : StopParams where
  ratio := t.ratio
  uploaded := t.uploaded
  seedingTime := t.seedingTime
  avgUpspeed := t.avgUpspeed
  free := attr.any (·.free)
  isCompleted := t.isCompleted

namespace StopRound

variable (round : StopRound)

/-- `get_torrent_attr`, without the cache; no attributes where there is no site. -/
def getTorrentAttr (siteInfo : SiteInfo) (url : Text) : Except AttrError (Option TorrentAttr) :=
  match siteInfo with
  | .missing | .other => .ok none
  | .dict =>
    match round.detailUrl url with
    | none => .error .raised
    | some detail => (round.engine.resolveTorrentAttr detail).map some

/-- The rule about the end of the free period is `Y`. -/
def stopfreeEnabled : Bool := round.rules .stopfree = .text (of "Y")

/-- What stops a torrent; nothing where it raises. -/
def stopType (t : StopTorrent) : Option BrushStopType :=
  if t.enclosure = [] ∨ t.paused = true then none
  else if round.stopfreeEnabled ∧ t.isCompleted = false then
    match round.getTorrentAttr round.siteInfo t.attrUrl with
    | .error .raised => none
    | .error .unknown => checkStopRule round.rules (t.params none) true
    | .ok attr => checkStopRule round.rules (t.params attr) false
  else checkStopRule round.rules (t.params none) false

/-- The round goes through the torrents. -/
def checked : Bool := round.running && round.siteInfo ≠ .missing && round.hasDownloader

/-- `stop_task_torrents`: the torrents that are stopped, and by which rule. -/
def stopTaskTorrents : List (StopTorrent × BrushStopType) :=
  if round.checked then
    (round.torrents.getD []).filterMap fun t => (round.stopType t).map (t, ·)
  else []

/-! ## What the site says -/

/-- The site is asked about the torrent in this round. -/
def Asks (t : StopTorrent) : Prop :=
  t.enclosure ≠ [] ∧ t.paused = false ∧ t.isCompleted = false ∧
    round.rules .stopfree = .text (of "Y") ∧ round.siteInfo = .dict

/-- What was fetched reads as not free. -/
def ReadsEnded (t : StopTorrent) (detail : Detail) : Prop :=
  (∃ url ∈ round.detailUrl t.attrUrl, round.engine.fetchDetail url = .ok detail) ∧
    ∃ attr, round.engine.evalDetail detail = .ok attr ∧ attr.free = false

/-- The site was asked in this round, and says that the torrent is no longer free. -/
def SaysFreeEnded (t : StopTorrent) : Prop :=
  round.Asks t ∧ ∃ detail, round.ReadsEnded t detail ∧ detail.Speaks

/-- The rule about the end of the free period is on, and no rule before it stops the torrent. -/
def Reached (t : StopTorrent) : Prop :=
  t.enclosure ≠ [] ∧ t.paused = false ∧ t.isCompleted = false ∧
    (round.rules .stopfree).isIgnored = false ∧
    ∀ key ≠ .stopfree, (round.rules key).isIgnored = false →
      checkRangeRule ((t.params none).value key) (round.rules key) key.multiplier = false

/-- The site is not asked, or does not say anything: the rule is on without being `Y`, there is no
site to ask, or what was fetched reads as not free without saying so. -/
def Blind (t : StopTorrent) : Prop :=
  round.rules .stopfree ≠ .text (of "Y") ∨ round.siteInfo ≠ .dict ∨
    ∃ detail, round.ReadsEnded t detail ∧ ¬detail.Speaks

end StopRound

/-- **The end of the free period stops a torrent** where its rule passes and no other one does. -/
theorem checkStopRule_eq_freeend_iff {rules : StopRule} {params : StopParams} {attrUnknown : Bool} :
    checkStopRule rules params attrUnknown = some .freeend ↔
      params.stops rules attrUnknown .stopfree = true ∧
        ∀ key ≠ .stopfree, params.stops rules attrUnknown key = false := by
  have hbefore : ∀ key, key ∈ StopKey.all.before .stopfree ↔ key ≠ .stopfree := by
    intro key
    cases key <;> decide
  rw [checkStopRule, Option.map_eq_some_iff]
  constructor
  · rintro ⟨key, hfind, htype⟩
    obtain rfl : key = .stopfree := by
      cases key <;> first | rfl | cases htype
    obtain ⟨_, hstops, hother⟩ := List.find?_eq_some_iff_before.mp hfind
    refine ⟨hstops, ?_⟩
    intro key hne
    simpa using hother key ((hbefore key).mpr hne)
  · rintro ⟨hstops, hother⟩
    refine ⟨.stopfree, List.find?_eq_some_iff_before.mpr ⟨by decide, hstops, ?_⟩, rfl⟩
    intro key hkey
    simp [hother key ((hbefore key).mp hkey)]

namespace StopRound

variable {round : StopRound} {t : StopTorrent}

/-- With these attributes, the end of the free period stops a torrent that the rule is tried on,
unless they are unknown or it is free. -/
theorem checkStopRule_params_iff {attr : Option TorrentAttr} {attrUnknown : Bool}
    (hon : t.enclosure ≠ [] ∧ t.paused = false) :
    checkStopRule round.rules (t.params attr) attrUnknown = some .freeend ↔
      round.Reached t ∧ attrUnknown = false ∧ ∀ a ∈ attr, a.free = false := by
  have hvalue : ∀ key, (t.params attr).value key = (t.params none).value key := by
    intro key
    cases key <;> rfl
  have hfree : (t.params attr).free = false ↔ ∀ a ∈ attr, a.free = false := by
    cases attr with
    | none => simp [StopTorrent.params]
    | some a => simp [StopTorrent.params]
  have hother : (∀ key ≠ .stopfree, (t.params attr).stops round.rules attrUnknown key = false) ↔
      ∀ key ≠ .stopfree, (round.rules key).isIgnored = false →
        checkRangeRule ((t.params none).value key) (round.rules key) key.multiplier = false := by
    refine forall_congr' ?_
    intro key
    refine imp_congr_right ?_
    intro hne
    simp only [StopParams.stops, if_neg hne, hvalue]
    cases (round.rules key).isIgnored <;> simp
  have hstopfree : (t.params attr).stops round.rules attrUnknown .stopfree = true ↔
      (round.rules .stopfree).isIgnored = false ∧ t.isCompleted = false ∧ attrUnknown = false ∧
        (t.params attr).free = false := by
    simp [StopParams.stops, StopTorrent.params, and_assoc]
  rw [checkStopRule_eq_freeend_iff, hstopfree, hother, hfree, Reached]
  tauto

/-- Attributes are known of a torrent where something was fetched that has them. -/
theorem getTorrentAttr_dict_iff {url : Text} {attr : Option TorrentAttr} :
    round.getTorrentAttr .dict url = .ok attr ↔
      ∃ detailUrl ∈ round.detailUrl url, ∃ detail, round.engine.fetchDetail detailUrl = .ok detail ∧
        ∃ a, round.engine.evalDetail detail = .ok a ∧ attr = some a := by
  unfold getTorrentAttr
  cases hurl : round.detailUrl url with
  | none => simp
  | some detailUrl =>
    simp only [Option.mem_some, exists_eq_left']
    cases hresolve : round.engine.resolveTorrentAttr detailUrl with
    | error e =>
      have hnone : ∀ detail a, round.engine.fetchDetail detailUrl = .ok detail →
          round.engine.evalDetail detail ≠ .ok a := by
        intro detail a hdetail hattr
        have hok := Raise.bind_ok_iff.mpr ⟨detail, hdetail, hattr⟩
        rw [AttrEngine.resolveTorrentAttr, hok] at hresolve
        cases hresolve
      simp only [Except.map, reduceCtorEq, false_iff]
      rintro ⟨detail, hdetail, a, hattr, _⟩
      exact hnone detail a hdetail hattr
    | ok a =>
      obtain ⟨detail, hdetail, hattr⟩ := Raise.bind_ok_iff.mp hresolve
      simp only [Except.map, Except.ok.injEq]
      constructor
      · rintro rfl
        exact ⟨detail, hdetail, a, hattr, rfl⟩
      · rintro ⟨detail', hdetail', a', hattr', rfl⟩
        obtain rfl : detail = detail' := Except.ok.inj (hdetail.symm.trans hdetail')
        obtain rfl : a = a' := Except.ok.inj (hattr.symm.trans hattr')
        rfl

/-- Something that reads as not free was fetched, where the attributes are known and not free. -/
theorem exists_readsEnded_iff :
    (∃ detail, round.ReadsEnded t detail) ↔
      ∃ a, round.getTorrentAttr .dict t.attrUrl = .ok (some a) ∧ a.free = false := by
  simp only [getTorrentAttr_dict_iff]
  constructor
  · rintro ⟨detail, ⟨url, hurl, hdetail⟩, a, hattr, hfree⟩
    exact ⟨a, ⟨url, hurl, detail, hdetail, a, hattr, rfl⟩, hfree⟩
  · rintro ⟨a, ⟨url, hurl, detail, hdetail, a', hattr, ha⟩, hfree⟩
    obtain rfl : a = a' := Option.some.inj ha
    exact ⟨detail, ⟨url, hurl, hdetail⟩, a, hattr, hfree⟩

/-- Where the site is asked, it has said that the torrent is not free, or nothing. -/
theorem says_or_blind_iff (hasks : round.Asks t) :
    round.SaysFreeEnded t ∨ round.Blind t ↔ ∃ detail, round.ReadsEnded t detail := by
  have hrule : ¬round.rules .stopfree ≠ .text (of "Y") := not_not_intro hasks.2.2.2.1
  have hsite : ¬round.siteInfo ≠ .dict := not_not_intro hasks.2.2.2.2
  rw [SaysFreeEnded, Blind, and_iff_right hasks, or_iff_right hrule, or_iff_right hsite]
  constructor
  · rintro (⟨detail, hreads, _⟩ | ⟨detail, hreads, _⟩)
    · exact ⟨detail, hreads⟩
    · exact ⟨detail, hreads⟩
  · rintro ⟨detail, hreads⟩
    by_cases hspeaks : detail.Speaks
    · exact .inl ⟨detail, hreads, hspeaks⟩
    · exact .inr ⟨detail, hreads, hspeaks⟩

/-- **What stops a torrent for the end of its free period**: the rule is tried on it, and either the
site says so or nothing was said. -/
theorem stopType_eq_freeend_iff :
    round.stopType t = some .freeend ↔ round.Reached t ∧ (round.SaysFreeEnded t ∨ round.Blind t) := by
  by_cases hoff : t.enclosure = [] ∨ t.paused = true
  · have hreached : ¬round.Reached t := by
      rintro ⟨henclosure, hpaused, _⟩
      rcases hoff with h | h
      · exact henclosure h
      · simp [h] at hpaused
    simp [stopType, hoff, hreached]
  · have hon : t.enclosure ≠ [] ∧ t.paused = false := by simpa using hoff
    rw [stopType, if_neg hoff]
    by_cases hasked : round.stopfreeEnabled = true ∧ t.isCompleted = false
    · rw [if_pos hasked]
      have hrule : round.rules .stopfree = .text (of "Y") := by
        simpa [stopfreeEnabled] using hasked.1
      by_cases hsite : round.siteInfo = .dict
      · rw [says_or_blind_iff ⟨hon.1, hon.2, hasked.2, hrule, hsite⟩, exists_readsEnded_iff, hsite]
        cases hattr : round.getTorrentAttr .dict t.attrUrl with
        | error e => cases e <;> simp [checkStopRule_params_iff hon]
        | ok attr =>
          -- there is a site, so there are attributes
          obtain ⟨_, _, _, _, a, _, rfl⟩ := getTorrentAttr_dict_iff.mp hattr
          simp [checkStopRule_params_iff hon]
      · have hnone : round.getTorrentAttr round.siteInfo t.attrUrl = .ok none := by
          cases h : round.siteInfo with
          | dict => exact absurd h hsite
          | missing => rfl
          | other => rfl
        have hblind : round.Blind t := .inr (.inl hsite)
        rw [hnone]
        simp [checkStopRule_params_iff hon, hblind]
    · rw [if_neg hasked, checkStopRule_params_iff hon]
      by_cases hcompleted : t.isCompleted = true
      · have hreached : ¬round.Reached t := by
          rintro ⟨_, _, h, _⟩
          simp [hcompleted] at h
        simp [hreached]
      · have hblind : round.Blind t := by
          refine .inl ?_
          intro hrule
          exact hasked ⟨by simp [stopfreeEnabled, hrule], by simpa using hcompleted⟩
        simp [hblind]

/-- A torrent of which the site has said something is not one of which it has said nothing. -/
theorem not_blind_of_says (h : round.SaysFreeEnded t) : ¬round.Blind t := by
  obtain ⟨⟨_, _, _, hrule, hsite⟩, detail, ⟨⟨url, hurl, hdetail⟩, _⟩, hspeaks⟩ := h
  rintro (h | h | ⟨detail', ⟨⟨url', hurl', hdetail'⟩, _⟩, hsilent⟩)
  · exact h hrule
  · exact h hsite
  · obtain rfl : url = url' := Option.mem_unique hurl hurl'
    obtain rfl : detail = detail' := Except.ok.inj (hdetail.symm.trans hdetail')
    exact hsilent hspeaks

variable (round) in
/-- **Every stop for the end of a free period goes back to what the site says**, exactly if there is
no torrent that the rule is tried on without the site having said anything. -/
theorem stops_sound_iff :
    (∀ t, (t, .freeend) ∈ round.stopTaskTorrents → round.SaysFreeEnded t) ↔
      (round.checked = true → ∀ t ∈ round.torrents.getD [], round.Reached t → ¬round.Blind t) := by
  have hmem : ∀ t, (t, .freeend) ∈ round.stopTaskTorrents ↔ round.checked = true ∧
      t ∈ round.torrents.getD [] ∧ round.Reached t ∧ (round.SaysFreeEnded t ∨ round.Blind t) := by
    intro t
    rw [← stopType_eq_freeend_iff, stopTaskTorrents]
    cases round.checked <;> simp
  constructor
  · intro h hchecked t ht hreached hblind
    exact not_blind_of_says (h t ((hmem t).mpr ⟨hchecked, ht, hreached, .inr hblind⟩)) hblind
  · intro h t hstop
    obtain ⟨hchecked, ht, hreached, hsays⟩ := (hmem t).mp hstop
    exact hsays.resolve_right (h hchecked t ht hreached)

/-! ## A word that is not asked for -/

/-- A round of a task with one rule, and a site that has no way to be read. -/
def stopfreeRound (word : Text) : StopRound where
  engine := {
    now := 0
    ruleTime := fun _ => none
    getByUrl := fun _ => none
    extractTid := fun _ _ => []
    request := fun _ _ => none
    fetchPage := fun _ _ => none }
  detailUrl := some
  running := true
  siteInfo := .dict
  hasDownloader := true
  rules
    | .stopfree => .text word
    | _ => .null
  torrents := some [{ id := of "1", enclosure := of "a" }]

/-- Nothing was fetched, and the torrent is stopped: an old template has the word `ON`. -/
theorem not_sound_stopfreeRound :
    ¬∀ (round : StopRound) (t : StopTorrent),
      (t, .freeend) ∈ round.stopTaskTorrents → round.SaysFreeEnded t := by
  intro h
  obtain ⟨⟨_, _, _, hrule, _⟩, _⟩ :=
    h (stopfreeRound (of "ON")) { id := of "1", enclosure := of "a" } (by decide +kernel)
  revert hrule
  decide +kernel

end StopRound

end WolfNas
