import WolfNas.Brush.SelectRules
import WolfNas.Lib.Program

/-!
# What a site says of a torrent

The attributes of a torrent are read from the answer of an API, or from the page of the torrent; the
definition of the site says where they stand.  A fetch that fails leaves them unknown.  An attribute
that the answer does not have is false, and so is one that the definition knows nothing about.

## Main definitions

* `JsonValue`, `JsonDoc`, `PageDoc` — what is fetched.
* `ApiConf`, `HtmlConf`, `SiteDef` — how a site is read.
* `ApiConf.eval`, `HtmlConf.eval` — the attributes of an answer, and of a page.
* `AttrEngine.fetchDetail`, `AttrEngine.resolveTorrentAttr` — the fetch, and the attributes.
* `Detail.Speaks` — what was fetched says whether the torrent is free.
-/

namespace WolfNas

open Text

/-! ## What is fetched -/

/-- A value in a JSON document. -/
inductive JsonValue
  | null
  | bool (b : Bool)
  | number (x : ℚ) (str : Text)
  | text (t : Text)
  /-- A list or a dictionary. -/
  | other (truthy : Bool) (str : Text)
  deriving DecidableEq

namespace JsonValue

/-- `str(value)`. -/
def str : JsonValue → Text
  | null => of "None"
  | bool b => if b then of "True" else of "False"
  | number _ s | text s | other _ s => s

/-- `bool(value)`. -/
def truthy : JsonValue → Bool
  | null => false
  | bool b | other b _ => b
  | number x _ => x ≠ 0
  | text t => t ≠ []

/-- The value as a number, where it is one. -/
def asNumber : JsonValue → Option ℚ
  | bool b => some (if b then 1 else 0)
  | number x _ => some x
  | null | text _ | other _ _ => none

/-- `int(value)`; none where it raises. -/
def asInt : JsonValue → Option ℤ
  | text t => parseInt t
  | value => value.asNumber.map fun x => if x < 0 then ⌈x⌉ else ⌊x⌋

end JsonValue

/-- A JSON document: the value at each path, and the top-level dictionary, where it is one. -/
structure JsonDoc where
  get : Text → JsonValue
  root : Option (Text → JsonValue)

/-- A page: JSON, or HTML with the texts of the nodes that a selector picks, none where it raises. -/
inductive PageDoc
  | json (doc : JsonDoc)
  | html (xpath : Text → Option (List Text))

/-- A page as it is fetched; its document is none where it cannot be parsed. -/
structure Page where
  finalUrl : Text
  text : Text
  loggedIn : Bool
  doc : Option PageDoc

/-! ## How a site is read -/

/-- What an attribute is expected to be. -/
inductive Expected
  | text (t : Text)
  | number (x : ℚ)
  deriving DecidableEq

/-- `bool(expected)`. -/
def Expected.truthy : Expected → Bool
  | text t => t ≠ []
  | number x => x ≠ 0

/-- Where an attribute stands and what it is expected to be; none is null or blank. -/
structure AttrRule where
  path : Text := []
  expected : Option Expected := none
  contains : Bool := false

/-- A rule of the whole site, and where the time stands for which it holds. -/
structure SiteAttrRule extends AttrRule where
  startKey : Text := []
  endKey : Text := []

/-- `torrent_attr.response`. -/
structure ApiConf where
  free : AttrRule := {}
  twoFree : AttrRule := {}
  siteFree : SiteAttrRule := {}
  siteTwoFree : SiteAttrRule := {}
  peerCountKey : Text := []
  peerCountText : Bool := false

/-- `html.conf`. -/
structure HtmlConf where
  free : List Text := []
  twoFree : List Text := []
  hr : List Text := []
  peerCount : List Text := []
  pubdate : List Text := []

/-- The definition of a site; what is blank or empty is none. -/
structure SiteDef where
  hasApi : Bool := false
  torrentAttr : Option ApiConf := none
  htmlConf : Option HtmlConf := none

/-- `SiteEngine`, and what is fetched from the sites in one round. -/
structure AttrEngine where
  /-- The time of the round. -/
  now : ℚ
  /-- `_parse_rule_time`; none where it raises. -/
  ruleTime : JsonValue → Option ℚ
  getByUrl : Text → Option SiteDef
  /-- `_extract_tid`; blank where there is none. -/
  extractTid : Text → SiteDef → Text
  /-- The answer about a torrent; none where the request fails, or the answer is no JSON. -/
  request : SiteDef → Text → Option JsonDoc
  /-- `_fetch_page_ex` of the page of a torrent; none where it raises. -/
  fetchPage : SiteDef → Text → Option Page

/-! ## An answer -/

/-- `_match_attr_value`; none where it raises. -/
def AttrRule.matches (rule : AttrRule) (extracted : JsonValue) (expected : Expected) :
    Option Bool :=
  match rule.contains, expected with
  | true, .text t => some (t ≠ [] ∧ t <:+: if extracted.truthy then extracted.str else [])
  | true, .number x => if x = 0 then some false else none
  | false, .text t =>
    match extracted.asNumber, floatOf t with
    | some x, some y => some (y = .finite x)
    | _, _ => some (extracted.str = t)
  | false, .number y => some (extracted.asNumber = some y)

/-- The attribute is as expected; none where it raises. -/
def AttrRule.hit (rule : AttrRule) (doc : JsonDoc) : Option Bool :=
  match rule.expected with
  | some expected =>
    if rule.path = [] then some false else rule.matches (doc.get rule.path) expected
  | none => some false

namespace AttrEngine

variable (engine : AttrEngine)

/-- `_attr_rule_active`. -/
def attrRuleActive (doc : JsonDoc) (rule : SiteAttrRule) : Bool :=
  let started := rule.startKey = [] ∨ ((doc.get rule.startKey).truthy = true ∧
    ∃ t ∈ engine.ruleTime (doc.get rule.startKey), t ≤ engine.now)
  let goesOn := rule.endKey = [] ∨ ((doc.get rule.endKey).truthy = true ∧
    ∃ t ∈ engine.ruleTime (doc.get rule.endKey), engine.now < t)
  started ∧ goesOn

/-- A rule of the whole site holds; none where it raises. -/
def siteHit (doc : JsonDoc) (rule : SiteAttrRule) : Option Bool :=
  match rule.expected with
  | some expected =>
    if rule.path ≠ [] ∧ expected.truthy ∧ engine.attrRuleActive doc rule then
      rule.matches (doc.get rule.path) expected
    else some false
  | none => some false

/-- The top-level field that the promotion stands in is missing: the site refused to answer. -/
def topMissing (conf : ApiConf) (doc : JsonDoc) : Bool :=
  let topKey := (conf.free.path.splitOn '.').headD []
  topKey ≠ [] && doc.root.any fun get => get topKey = .null

/-- The number of peers in an answer; none where it raises. -/
def apiPeerCount (conf : ApiConf) (doc : JsonDoc) : Option PeerCount :=
  let value := doc.get conf.peerCountKey
  if conf.peerCountKey = [] then some (.number (.finite 0))
  else if conf.peerCountText then some .text
  else if value.truthy then value.asInt.map fun n => .number (.finite n)
  else some (.number (.finite 0))

/-- The attributes in an answer; none where it raises. -/
def evalApi (conf : ApiConf) (doc : JsonDoc) : Option TorrentAttr := do
  if topMissing conf doc then none
  let free ← conf.free.hit doc
  let twoFree ← conf.twoFree.hit doc
  let siteFree ← if free || twoFree then some false else engine.siteHit doc conf.siteFree
  let siteTwoFree ← if twoFree then some false else engine.siteHit doc conf.siteTwoFree
  let peers ← apiPeerCount conf doc
  return {
    free := free || twoFree || siteFree || siteTwoFree
    twoFree := twoFree || siteTwoFree
    peerCount := some peers }

end AttrEngine

/-! ## A page -/

namespace PageDoc

/-- `_match_eq`; none where it raises. -/
def matchEq (doc : PageDoc) (xp : Text) : Option Bool :=
  match doc with
  | json d => some ((d.get (xp.takeWhile (· ≠ '='))).str = (xp.dropWhile (· ≠ '=')).tail)
  | html xpath => (xpath xp).map (· ≠ [])

/-- `_match_truthy`; none where it raises. -/
def matchTruthy (doc : PageDoc) (xp : Text) : Option Bool :=
  match doc with
  | json d => some (d.get xp).truthy
  | html xpath => (xpath xp).map (· ≠ [])

/-- The number of peers at the first selector that has one; none where it raises. -/
def peerCount (doc : PageDoc) : List Text → Option ℤ
  | [] => some 0
  | xp :: xps =>
    match doc with
    | json d => if (d.get xp).truthy then (d.get xp).asInt else peerCount doc xps
    | html xpath =>
      match xpath xp with
      | none => none
      | some [] => peerCount doc xps
      | some (t :: _) => some (toNat (t.filter Char.isDigit))

/-- The time of publication at the first selector that has one; none where it raises. -/
def pubdate (doc : PageDoc) : List Text → Option Text
  | [] => some []
  | xp :: xps =>
    match doc with
    | json d => if (d.get xp).truthy then some (d.get xp).str.strip else pubdate doc xps
    | html xpath =>
      match xpath xp with
      | none => none
      | some ts =>
        let t := (ts.headD []).strip
        if t = [] then pubdate doc xps else some t

end PageDoc

/-- `_eval_html_conf`: the attributes on a page; none where it raises. -/
def HtmlConf.eval (conf : HtmlConf) (doc : PageDoc) : Option TorrentAttr := do
  let free ← conf.free.mapM doc.matchEq
  let twoFree ← conf.twoFree.mapM doc.matchEq
  let hr ← conf.hr.mapM doc.matchTruthy
  let peers ← doc.peerCount conf.peerCount
  let pubdate ← doc.pubdate conf.pubdate
  return {
    free := free.any id || twoFree.any id
    twoFree := twoFree.any id
    hr := hr.any id
    peerCount := some (.number (.finite peers))
    pubdate }

/-! ## The fetch -/

/-- Why there are no attributes: `TorrentAttrFetchError`, or something else that was raised. -/
inductive AttrError
  | unknown | raised
  deriving DecidableEq

/-- What was fetched, and how it is read. -/
inductive Detail
  | api (conf : ApiConf) (doc : JsonDoc)
  | page (conf : HtmlConf) (doc : PageDoc)
  /-- The definition does not say how to read the site. -/
  | nothing

namespace AttrEngine

variable (engine : AttrEngine)

/-- The fetch of `resolve_torrent_attr`. -/
def fetchDetail (url : Text) : Except AttrError Detail :=
  match engine.getByUrl url with
  | none => .error .unknown
  | some site =>
    match site.hasApi, site.torrentAttr with
    | true, some conf =>
      let tid := engine.extractTid url site
      if tid = [] then .error .unknown
      else match engine.request site tid with
        | none => .error .unknown
        | some doc => .ok (.api conf doc)
    | _, _ =>
      match site.htmlConf with
      | none => .ok .nothing
      | some conf =>
        match engine.fetchPage site url with
        | none => .error .raised
        | some page =>
          if of "login" <:+: lower page.finalUrl ∨ page.text = [] ∨ page.loggedIn = false then
            .error .unknown
          else match page.doc with
            | none => .error .unknown
            | some doc => .ok (.page conf doc)

/-- The attributes in what was fetched. -/
def evalDetail : Detail → Except AttrError TorrentAttr
  | .api conf doc =>
    match engine.evalApi conf doc with
    | none => .error .unknown
    | some attr => .ok attr
  | .page conf doc =>
    match conf.eval doc with
    | none => .error .raised
    | some attr => .ok attr
  | .nothing => .ok { peerCount := some (.number (.finite 0)) }

/-- `resolve_torrent_attr`. -/
def resolveTorrentAttr (url : Text) : Except AttrError TorrentAttr :=
  engine.fetchDetail url >>= engine.evalDetail

end AttrEngine

/-! ## What is said -/

/-- What was fetched says whether the torrent is free: the definition knows where this stands, and
the answer has something there; on an HTML page, a torrent that is not free has no mark. -/
def Detail.Speaks : Detail → Prop
  | .api conf doc => conf.free.path ≠ [] ∧ conf.free.expected ≠ none ∧
      doc.get conf.free.path ≠ .null
  | .page conf (.json doc) => ∃ xp ∈ conf.free ++ conf.twoFree,
      doc.get (xp.takeWhile (· ≠ '=')) ≠ .null
  | .page conf (.html _) => conf.free ++ conf.twoFree ≠ []
  | .nothing => False

end WolfNas
