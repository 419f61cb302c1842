import WolfNas.Lib.FirstFound
import WolfNas.Brush.RangeRule
import WolfNas.Filter.Rules

/-!
# Which torrents a brush task selects

A task selects the torrents of a feed by a dozen rules, tried in order until one is not met.  The
rules are tried once to decide, and once more to tell the user why a torrent was left out.  A rule
that raises ends both, but the decision is for the torrent, and the explanation against it.

## Main definitions

* `TorrentAttr`, `BrushMedia`, `RssInfo`, `SelectArgs` — what the rules look at.
* `SelectEnv.check` — one rule.
* `SelectEnv.checkRssRule`, `SelectEnv.getRssRejectReason` — the decision and the explanation.
* `SelectEnv.Raises` — a rule raises.

## Main results

* `SelectEnv.check_eq_none_iff` — when a rule raises.
* `SelectEnv.explained_iff` — when the explanation is blank exactly for the selected torrents.
-/

namespace WolfNas

open Text

/-! ## What the rules look at -/

/-- How many peers a torrent has. -/
inductive PeerCount
  | number (x : FloatNumber)
  /-- A text, that compares with no number. -/
  | text
  deriving DecidableEq

/-- The attributes of a torrent on its page; those that are missing have their defaults. -/
structure TorrentAttr where
  free : Bool := false
  twoFree : Bool := false
  hr : Bool := false
  peerCount : Option PeerCount := none
  pubdate : Text := []
  deriving DecidableEq

/-- What was recognised of a title; years and ids as texts, and blank where there are none. -/
structure BrushMedia where
  isMovie : Bool
  title : Text
  year : Text := []
  tmdbId : Text := []
  season : Text := []
  revString : Text := []
  site : Text := []
  originalLanguage : Text := []
  deriving DecidableEq

/-- The sites of a subscription: a list, or a text that is JSON or a list with commas. -/
inductive RssSites
  | list (l : List Text)
  | text (t : Text)
  deriving DecidableEq

/-- A subscription; what is none is blank. -/
structure RssInfo where
  name : Text := []
  year : Text := []
  tmdbid : Text := []
  fuzzyMatch : Bool := false
  season : Text := []
  rssSites : RssSites := .list []
  deriving DecidableEq

/-- What a torrent is tried with; of a publication date, the hours since then. -/
structure SelectArgs where
  title : Option Text
  torrentSize : Option FloatNumber := none
  pubdate : Option FloatNumber := none
  torrentAttr : TorrentAttr := {}
  category : Text := []
  labels : Text := []
  mediaInfo : Option BrushMedia := none
  rssMovies : List RssInfo := []
  rssTvs : List RssInfo := []

/-- What the rules do not decide themselves. -/
structure SelectEnv where
  regex : Regex
  /-- The hours since a time that a page shows; none where it cannot be read. -/
  hoursSince : Text → Option FloatNumber
  /-- The JSON list that a text is. -/
  jsonList : Text → Option (List Text)

/-- The rules, in the order in which they are tried. -/
inductive RssKey
  | size | include' | exclude | categoryInclude | categoryExclude | labelInclude | labelExclude
  | free | hr | peercount | pubdate | excludeSubscribe | originalLanguage
  deriving DecidableEq, Repr

/-- `rule_checks`. -/
def RssKey.all : List RssKey :=
  [size, include', exclude, categoryInclude, categoryExclude, labelInclude, labelExclude, free, hr,
    peercount, pubdate, excludeSubscribe, originalLanguage]

/-- `_RULE_FAIL_REASONS`. -/
def RssKey.failReason : RssKey → Text
  | size => of "体积不符合"
  | include' => of "标题不匹配"
  | exclude => of "排除关键词命中"
  | categoryInclude => of "分类不匹配"
  | categoryExclude => of "分类排除命中"
  | labelInclude => of "标签不匹配"
  | labelExclude => of "标签排除命中"
  | free => of "优惠状态不符合"
  | hr => of "命中 HR"
  | peercount => of "做种人数不符合"
  | pubdate => of "发布时间不符合"
  | excludeSubscribe => of "已订阅"
  | originalLanguage => of "原始语言不符合"

/-- The reason that is given where a rule raises. -/
def ruleRaised : Text := of "规则检查异常"

/-- The rules of a task; those that are missing are null. -/
abbrev RssRule := RssKey → RuleValue

/-! ## The checks -/

/-- `_check_free_status`. -/
def checkFreeStatus (attr : TorrentAttr) (rule : RuleValue) : Bool :=
  if rule = .text (of "FREE") ∧ attr.free = false then false
  else if rule = .text (of "2XFREE") ∧ attr.twoFree = false then false
  else !(decide (rule = .text (of "NORMAL")) && (attr.free || attr.twoFree))

/-- `check_range_rule` on the number of peers; none where it raises. -/
def checkPeerCount (peers : Option PeerCount) (rule : RuleValue) : Option Bool :=
  match peers with
  | none => some true
  | some (.number x) => some (checkRangeRule (some x) rule 1)
  | some .text =>
    match rule.range 1 with
    | none => some true
    | some r => if r.operator ∈ [of "gt", of "lt", of "bw"] then none else some true

/-- `_check_original_language`; none where it raises. -/
def checkOriginalLanguage (media : Option BrushMedia) (rule : RuleValue) : Option Bool :=
  if rule.truthy = false then some true
  else match media with
    | none => some true
    | some media =>
      if media.originalLanguage = [] then some true
      else
        let lang := media.originalLanguage.strip.take 2
        match rule with
        | .text t =>
          if t = of "other" then some (lang ∉ filterLanguageOptions) else some (t.take 2 = lang)
        | .list _ => some false
        | .null | .scalar _ => none

/-- `_parse_rss_sites`. -/
def parseRssSites (jsonList : Text → Option (List Text)) : RssSites → List Text
  | .list l => l
  | .text t =>
    if t = [] then []
    else (jsonList t).getD (((t.splitOn ',').map strip).filter (· ≠ []))

namespace SelectEnv

variable (env : SelectEnv)

/-- `re.search(rule, text, re.IGNORECASE)`; none where it raises. -/
def search (rule : RuleValue) (text : Option Text) : Option Bool :=
  match rule, text with
  | .text pattern, some text => env.regex.search pattern text
  | _, _ => none

/-- `_check_pubdate`. -/
def checkPubdate (pubdate : Option FloatNumber) (attr : TorrentAttr) (rule : RuleValue) : Bool :=
  let hours := if attr.pubdate ≠ [] then env.hoursSince attr.pubdate else pubdate
  match hours with
  | some hours => checkRangeRule (some hours) rule 1
  | none => true

/-- `_match_media`; none where it raises. -/
def matchMedia (media : BrushMedia) (info : RssInfo) (isTv : Bool) : Option Bool :=
  let season := if isTv then info.season else []
  if info.fuzzyMatch = false then
    let named :=
      if info.tmdbid ≠ [] ∧ info.tmdbid.startsWith (of "DB:") = false then
        some (decide (media.tmdbId = info.tmdbid))
      else if info.year = [] then some (decide (info.name = media.title))
      else (parseInt info.year).map fun n =>
        decide (media.year ∈ [info.year, ofInt (n + 1), ofInt (n - 1)] ∧ info.name = media.title)
    named.map (· && (season = [] ∨ season = media.season))
  else if season ≠ [] ∧ season ≠ of "S00" ∧ season ≠ media.season then some false
  else if info.year ≠ [] ∧ info.year ≠ media.year then some false
  else if info.name = [] then some true
  else
    let searchTitle := media.revString ++ ' ' :: media.title ++ ' ' :: media.year
    (env.regex.search info.name searchTitle).map (· || decide (info.name <:+: searchTitle))

/-- The loop over the subscriptions, up to one that matches; none where it raises. -/
def anyMatch (media : BrushMedia) (isTv : Bool) (infos : List RssInfo) : Option Bool :=
  match infos.find? fun info => env.matchMedia media info isTv ≠ some false with
  | none => some false
  | some info => env.matchMedia media info isTv

/-- The subscriptions that `_check_subscribe_status` tries, and whether they are of shows. -/
def triedInfos (media : BrushMedia) (rssMovies rssTvs : List RssInfo) : Bool × List RssInfo :=
  if media.isMovie ∧ rssMovies ≠ [] then (false, rssMovies)
  else (true, rssTvs.filter fun info =>
    let sites := parseRssSites env.jsonList info.rssSites
    media.site = [] ∨ sites = [] ∨ media.site ∈ sites)

/-- `_check_subscribe_status`; none where it raises. -/
def checkSubscribeStatus (media : Option BrushMedia) (rssMovies rssTvs : List RssInfo)
    (rule : RuleValue) : Option Bool :=
  if rule = .text (of "N") then some false
  else match media with
    | none => some false
    | some media =>
      let tried := env.triedInfos media rssMovies rssTvs
      env.anyMatch media tried.1 tried.2

/-- One of `rule_checks`; none where it raises. -/
def check (args : SelectArgs) (rule : RuleValue) : RssKey → Option Bool
  | .size => some (checkRangeRule args.torrentSize rule (1024 ^ 3))
  | .include' => env.search rule args.title
  | .exclude => (env.search rule args.title).map (!·)
  | .categoryInclude => env.search rule (some args.category)
  | .categoryExclude => (env.search rule (some args.category)).map (!·)
  | .labelInclude => env.search rule (some args.labels)
  | .labelExclude => (env.search rule (some args.labels)).map (!·)
  | .free => some (checkFreeStatus args.torrentAttr rule)
  | .hr => some (!args.torrentAttr.hr)
  | .peercount => checkPeerCount args.torrentAttr.peerCount rule
  | .pubdate => some (env.checkPubdate args.pubdate args.torrentAttr rule)
  | .excludeSubscribe =>
    (env.checkSubscribeStatus args.mediaInfo args.rssMovies args.rssTvs rule).map (!·)
  | .originalLanguage => checkOriginalLanguage args.mediaInfo rule

/-- The first rule that is switched on and not met, or raises. -/
def decisive (rules : RssRule) (args : SelectArgs) : Option RssKey :=
  RssKey.all.find? fun key =>
    (rules key).isIgnored = false ∧ env.check args (rules key) key ≠ some true

/-- `check_rss_rule`. -/
def checkRssRule (rules : RssRule) (args : SelectArgs) : Bool :=
  match env.decisive rules args with
  | none => true
  | some key => env.check args (rules key) key = none

/-- `get_rss_reject_reason`. -/
def getRssRejectReason (rules : RssRule) (args : SelectArgs) : Text :=
  match env.decisive rules args with
  | none => []
  | some key => if env.check args (rules key) key = none then ruleRaised else key.failReason

/-! ## What raises -/

/-- The rule is no text, or no regular expression, or there is no text to search. -/
def SearchRaises (rule : RuleValue) (text : Option Text) : Prop :=
  ∀ pattern, rule = .text pattern → ∀ t ∈ text, env.regex.search pattern t = none

/-- The subscription has a year that is no number, or a name that is no regular expression, and it
is looked at. -/
def InfoRaises (media : BrushMedia) (isTv : Bool) (info : RssInfo) : Prop :=
  if info.fuzzyMatch = false then
    ¬(info.tmdbid ≠ [] ∧ info.tmdbid.startsWith (of "DB:") = false) ∧ info.year ≠ [] ∧
      parseInt info.year = none
  else
    ¬(isTv = true ∧ info.season ≠ [] ∧ info.season ≠ of "S00" ∧ info.season ≠ media.season) ∧
      ¬(info.year ≠ [] ∧ info.year ≠ media.year) ∧ info.name ≠ [] ∧
      env.regex.search info.name (media.revString ++ ' ' :: media.title ++ ' ' :: media.year) = none

/-- The first subscription that is not passed over raises. -/
def SubscribeRaises (media : BrushMedia) (tried : Bool × List RssInfo) : Prop :=
  ∃ info ∈ tried.2.find? fun info => env.matchMedia media info tried.1 ≠ some false,
    env.InfoRaises media tried.1 info

/-- A rule raises. -/
def Raises (args : SelectArgs) (rule : RuleValue) : RssKey → Prop
  | .include' | .exclude => env.SearchRaises rule args.title
  | .categoryInclude | .categoryExclude => env.SearchRaises rule (some args.category)
  | .labelInclude | .labelExclude => env.SearchRaises rule (some args.labels)
  | .peercount => args.torrentAttr.peerCount = some .text ∧
      ∃ r, rule.range 1 = some r ∧ r.operator ∈ [of "gt", of "lt", of "bw"]
  | .excludeSubscribe => rule ≠ .text (of "N") ∧ ∃ media ∈ args.mediaInfo,
      env.SubscribeRaises media (env.triedInfos media args.rssMovies args.rssTvs)
  | .originalLanguage => rule = .scalar true ∧ ∃ media ∈ args.mediaInfo,
      media.originalLanguage ≠ []
  | .size | .free | .hr | .pubdate => False

theorem search_eq_none_iff {rule : RuleValue} {text : Option Text} :
    env.search rule text = none ↔ env.SearchRaises rule text := by
  cases rule with
  | text pattern =>
    cases text with
    | none => simp [search, SearchRaises]
    | some t => simp [search, SearchRaises]
  | null => simp [search, SearchRaises]
  | scalar b => simp [search, SearchRaises]
  | list b => simp [search, SearchRaises]

theorem matchMedia_eq_none_iff {media : BrushMedia} {isTv : Bool} {info : RssInfo} :
    env.matchMedia media info isTv = none ↔ env.InfoRaises media isTv info := by
  unfold matchMedia InfoRaises
  by_cases hfuzzy : info.fuzzyMatch = false
  · rw [if_pos hfuzzy, if_pos hfuzzy]
    by_cases hid : info.tmdbid ≠ [] ∧ info.tmdbid.startsWith (of "DB:") = false
    · simp [hid]
    · by_cases hyear : info.year = []
      · simp [hid, hyear]
      · simp [hid, hyear]
  · rw [if_neg hfuzzy, if_neg hfuzzy]
    cases isTv with
    | false =>
      by_cases hyear : info.year ≠ [] ∧ info.year ≠ media.year
      · simp [hyear]
      · by_cases hname : info.name = []
        · simp [hyear, hname]
        · simp [hyear, hname]
    | true =>
      by_cases hseason : info.season ≠ [] ∧ info.season ≠ of "S00" ∧ info.season ≠ media.season
      · simp [hseason]
      · by_cases hyear : info.year ≠ [] ∧ info.year ≠ media.year
        · simp [hseason, hyear]
        · by_cases hname : info.name = []
          · simp [hseason, hyear, hname]
          · simp [hseason, hyear, hname]

theorem anyMatch_eq_none_iff {media : BrushMedia} {tried : Bool × List RssInfo} :
    env.anyMatch media tried.1 tried.2 = none ↔ env.SubscribeRaises media tried := by
  unfold anyMatch SubscribeRaises
  cases hfind : tried.2.find? fun info => env.matchMedia media info tried.1 ≠ some false with
  | none => simp
  | some info => simp [matchMedia_eq_none_iff]

theorem checkPeerCount_eq_none_iff {peers : Option PeerCount} {rule : RuleValue} :
    checkPeerCount peers rule = none ↔ peers = some .text ∧
      ∃ r, rule.range 1 = some r ∧ r.operator ∈ [of "gt", of "lt", of "bw"] := by
  match peers with
  | none => simp [checkPeerCount]
  | some (.number x) => simp [checkPeerCount]
  | some .text =>
    cases hrange : rule.range 1 with
    | none => simp [checkPeerCount, hrange]
    | some r =>
      simp only [checkPeerCount, hrange, Option.some.injEq, exists_eq_left', true_and]
      by_cases hknown : r.operator ∈ [of "gt", of "lt", of "bw"]
      · simp only [hknown, if_true]
      · simp only [hknown, if_false, reduceCtorEq]

theorem checkOriginalLanguage_eq_none_iff {media : Option BrushMedia} {rule : RuleValue} :
    checkOriginalLanguage media rule = none ↔
      rule = .scalar true ∧ ∃ media' ∈ media, media'.originalLanguage ≠ [] := by
  cases media with
  | none => simp [checkOriginalLanguage]
  | some media =>
    by_cases hlanguage : media.originalLanguage = []
    · simp [checkOriginalLanguage, hlanguage]
    · by_cases hrule : rule.truthy = false
      · have hscalar : rule ≠ .scalar true := by
          rintro rfl
          simp [RuleValue.truthy] at hrule
        simp [checkOriginalLanguage, hrule, hscalar]
      · simp only [checkOriginalLanguage, if_neg hrule, if_neg hlanguage, Option.mem_some]
        cases rule with
        | null => simp [RuleValue.truthy] at hrule
        | text t =>
          by_cases ht : t = of "other"
          · simp [ht]
          · simp [ht]
        | scalar b => simpa [RuleValue.truthy, hlanguage] using hrule
        | list b => simp

/-- **When a rule raises.** -/
theorem check_eq_none_iff {args : SelectArgs} {rule : RuleValue} {key : RssKey} :
    env.check args rule key = none ↔ env.Raises args rule key := by
  cases key with
  | include' | exclude | categoryInclude | categoryExclude | labelInclude | labelExclude =>
    simp [check, Raises, search_eq_none_iff]
  | peercount => exact checkPeerCount_eq_none_iff
  | originalLanguage => exact checkOriginalLanguage_eq_none_iff
  | excludeSubscribe =>
    by_cases hoff : rule = .text (of "N")
    · simp [check, Raises, checkSubscribeStatus, hoff]
    · cases hmedia : args.mediaInfo with
      | none => simp [check, Raises, checkSubscribeStatus, hmedia]
      | some media => simp [check, Raises, checkSubscribeStatus, hoff, hmedia, anyMatch_eq_none_iff]
  | size | free | hr | pubdate => simp [check, Raises]

/-! ## The decision and the explanation -/

variable (rules : RssRule) (args : SelectArgs)

/-- The explanation is blank where the torrent is selected, unless the rule that decides raises. -/
theorem agree_iff_decisive :
    (env.checkRssRule rules args = true ↔ env.getRssRejectReason rules args = []) ↔
      ∀ key, env.decisive rules args = some key → env.check args (rules key) key ≠ none := by
  cases hkey : env.decisive rules args with
  | none => simp [checkRssRule, getRssRejectReason, hkey]
  | some key =>
    have hreason : key.failReason ≠ [] := by cases key <;> decide
    have hraised : ruleRaised ≠ [] := by decide
    by_cases hcheck : env.check args (rules key) key = none
    · simp [checkRssRule, getRssRejectReason, hkey, hcheck, hraised]
    · simp [checkRssRule, getRssRejectReason, hkey, hcheck, hreason]

/-- **The decision and the explanation agree** exactly if every rule that is switched on and raises
comes after one that is not met. -/
theorem explained_iff :
    (env.checkRssRule rules args = true ↔ env.getRssRejectReason rules args = []) ↔
      ∀ key, (rules key).isIgnored = false → env.Raises args (rules key) key →
        ∃ other ∈ RssKey.all.before key, (rules other).isIgnored = false ∧
          env.check args (rules other) other = some false := by
  rw [agree_iff_decisive, decisive, List.find?_forall_iff]
  have hall : ∀ key, key ∈ RssKey.all := by
    intro key
    cases key <;> decide
  have hfails : ∀ key : RssKey, (env.check args (rules key) key ≠ some true ∧
      env.check args (rules key) key ≠ none) ↔ env.check args (rules key) key = some false := by
    intro key
    cases env.check args (rules key) key with
    | none => simp
    | some b => cases b <;> simp
  constructor
  · intro h key hon hraises
    have hnone := (env.check_eq_none_iff).mpr hraises
    obtain ⟨other, hother, hwanted, hfound⟩ :=
      h key (hall key) (by simp [hon, hnone]) (not_not_intro hnone)
    have hwanted := of_decide_eq_true hwanted
    exact ⟨other, hother, hwanted.1, (hfails other).mp ⟨hwanted.2, hfound⟩⟩
  · intro h key _ hwanted hnone
    have hon := (of_decide_eq_true hwanted).1
    obtain ⟨other, hother, hon', hfalse⟩ :=
      h key hon ((env.check_eq_none_iff).mp (not_not.mp hnone))
    obtain ⟨htrue, hsome⟩ := (hfails other).mpr hfalse
    exact ⟨other, hother, decide_eq_true ⟨hon', htrue⟩, hsome⟩

end SelectEnv

/-! ## A pattern that is no regular expression -/

/-- No page shows a time, and no text is a JSON list. -/
def unclosedEnv : SelectEnv where
  regex := unclosedRegex
  hoursSince _ := none
  jsonList _ := none

/-- The one rule of a task asks for it in the title. -/
def unclosedRule : RssRule
  | .include' => .text (of "(")
  | _ => .null

/-- A torrent is selected, and a reason is given why it was left out. -/
theorem not_agree_unclosedRule :
    ¬∀ (env : SelectEnv) (rules : RssRule) (args : SelectArgs),
      env.checkRssRule rules args = true ↔ env.getRssRejectReason rules args = [] := by
  intro h
  have hselected := h unclosedEnv unclosedRule { title := some (of "Movie") }
  revert hselected
  decide +kernel

end WolfNas
