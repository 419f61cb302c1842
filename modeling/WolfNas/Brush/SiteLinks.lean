import WolfNas.Brush.Adding
import WolfNas.Lib.Url

/-!
# The sites that links belong to

The site engine finds the site of a link by its host, or by a domain that occurs in it, and reads
the number of a torrent from a link.  A torrent of a feed counts as handled where the number of
its page is that of a record whose link has the domain of the site in it, or, for a site whose
torrents have no numbers, where its link is that of a record.

Links that `urlparse` refuses raise; functions are none there.

## Main definitions

* `SiteDefinition`, `SiteEngine` — the sites.
* `SiteEngine.getByUrl`, `SiteEngine.getTidByUrl` — the site and the number of a link.
* `SiteEngine.isTorrentHandled` — `is_torrent_handled`.

## Main results

* `SiteEngine.anyTid_eq_some` — the loop over the records, where all can be read.
* `SiteEngine.handled_of_link`, `SiteEngine.handled_of_tid` — the two ways of looking up.
-/

namespace WolfNas

open Text

/-- What a site is known by. -/
structure SiteDefinition where
  domain : Text
  domainAliases : List Text := []
  rssDomains : List Text := []
  tidPattern : Text := of "\\d+"
  /-- The type of its downloads, where they are configured. -/
  downloadType : Option Text := none
  deriving DecidableEq

/-- `replace("www.", "")`. -/
def dropWww : Text → Text
  | 'w' :: 'w' :: 'w' :: '.' :: s => dropWww s
  | c :: s => c :: dropWww s
  | [] => []

/-- One text occurs in the other. -/
def eitherIn (a b : Text) : Prop := a <:+: b ∨ b <:+: a

instance (a b : Text) : Decidable (eitherIn a b) := inferInstanceAs (Decidable (_ ∨ _))

/-- `match_url`. -/
def SiteDefinition.matchUrl (site : SiteDefinition) (url : Text) : Bool :=
  url ≠ [] ∧ site.domain ≠ [] ∧
    (eitherIn site.domain.lower url.lower ∨
      eitherIn (dropWww site.domain.lower) (dropWww url.lower) ∨
      (∃ name ∈ site.domainAliases, eitherIn (lower name) url.lower) ∨
      ∃ domain ∈ site.rssDomains, eitherIn (lower domain) url.lower)

/-- The sites, and the index of their hosts; which hosts `urlparse` refuses, and what a pattern
finds in a text, are parameters. -/
structure SiteEngine where
  sites : List SiteDefinition
  domainIndex : Text → Option SiteDefinition := fun _ => none
  hostOk : Text → Bool := fun _ => true
  findall : Text → Text → List Text := fun _ _ => []

/-! ## The number of a torrent in a link -/

/-- `[?&]tid=(\d+)`. -/
def tidParam : Text → Option Text
  | [] => none
  | c :: s =>
    let digits := (s.drop 4).takeWhile Char.isDigit
    if (c = '?' ∨ c = '&') ∧ of "tid=" <+: s ∧ digits ≠ [] then some digits else tidParam s

/-- `uses_params`. -/
def usesParams : List Text :=
  ["", "ftp", "hdl", "prospero", "http", "imap", "https", "shttp", "rtsp", "rtsps", "rtspu",
    "sip", "sips", "mms", "sftp", "tel"].map of

/-- The segments of the path; parameters are cut off from the last one. -/
def pathSegments (parts : Url.SplitResult) : List Text :=
  let segments : List Text := parts.path.splitOn '/'
  if parts.scheme ∈ usesParams then
    segments.dropLast ++ segments.getLast?.toList.map fun s => s.takeWhile (· != ';')
  else segments

/-- The link without its scheme and host: `^[a-zA-Z]+://[^/]+` taken off. -/
def withoutHost (url : Text) : Text :=
  let rest := url.dropWhile Char.isAlpha
  if url.takeWhile Char.isAlpha ≠ [] ∧ of "://" <+: rest ∧
      (rest.drop 3).takeWhile (· != '/') ≠ [] then
    (rest.drop 3).dropWhile (· != '/')
  else url

namespace SiteEngine

variable (e : SiteEngine)

/-- `get_by_url`. -/
def getByUrl (url : Text) : Option (Option SiteDefinition) :=
  if url = [] then some none
  else (Url.split e.hostOk url.lower).map fun parts =>
    let indexed := if parts.netloc ≠ [] then e.domainIndex parts.netloc else none
    if indexed.isSome then indexed else e.sites.find? fun site => site.matchUrl url

/-- `is_tid_based_dedup`. -/
def isTidBasedDedup (url : Text) : Option Bool :=
  (e.getByUrl url).map fun site => site.any fun site => site.tidPattern ≠ []

/-- `normalize_domain`. -/
def normalizeDomain (url : Text) : Option Text :=
  match e.getByUrl url with
  | none => none
  | some (some site) => some site.domain
  | some none => (Url.split e.hostOk url).map fun parts =>
      parts.scheme ++ of "://" ++ parts.netloc

/-- The pattern that finds the number. -/
def tidPatternOf (site : Option SiteDefinition) : Text :=
  let own := site.elim [] SiteDefinition.tidPattern
  if own ≠ [] then own
  else if (site.bind SiteDefinition.downloadType) ∈
      [some (of "api"), some (of "api_chained")] then of "\\d+"
  else of "id=(\\d+)"

/-- `get_tid_by_url`. -/
def getTidByUrl (url : Text) : Option (Option Text) :=
  if url = [] then some none
  else match tidParam url with
  | some tid => some (some tid)
  | none =>
    match Url.split e.hostOk url with
    | none => none
    | some parts =>
      match ((pathSegments parts).filter isDigit).getLast? with
      | some tid => some (some tid)
      | none => (e.getByUrl url).map fun site =>
          (e.findall (tidPatternOf site) (withoutHost url)).getLast?

/-- `urlparse` takes the link apart. -/
def Readable (url : Text) : Prop :=
  (Url.split e.hostOk url).isSome = true ∧ (Url.split e.hostOk url.lower).isSome = true

instance (url : Text) : Decidable (e.Readable url) := inferInstanceAs (Decidable (_ ∧ _))

variable {e}

theorem exists_getByUrl {url : Text} (h : e.Readable url) : ∃ site, e.getByUrl url = some site := by
  obtain ⟨parts, hparts⟩ := Option.isSome_iff_exists.mp h.2
  rw [getByUrl, hparts]
  split_ifs
  · exact ⟨_, rfl⟩
  · exact ⟨_, rfl⟩

theorem exists_getTidByUrl {url : Text} (h : e.Readable url) :
    ∃ tid, e.getTidByUrl url = some tid := by
  obtain ⟨parts, hparts⟩ := Option.isSome_iff_exists.mp h.1
  obtain ⟨site, hsite⟩ := exists_getByUrl h
  rw [getTidByUrl, hparts, hsite]
  split_ifs
  · exact ⟨_, rfl⟩
  · split
    · exact ⟨_, rfl⟩
    · dsimp only
      split
      · exact ⟨_, rfl⟩
      · exact ⟨_, rfl⟩

end SiteEngine

/-! ## `is_torrent_handled` -/

/-- The link by which a torrent of a feed is told: its page, or else itself. -/
def BrushItem.dedupUrl (x : BrushItem) : Text := if x.pageUrl ≠ [] then x.pageUrl else x.enclosure

/-- The link of a record that its number is read from. -/
def BrushRow.recordUrl (r : BrushRow) : Text := if r.pageUrl ≠ [] then r.pageUrl else r.enclosure

/-- `get_brushtask_torrent_by_enclosure`. -/
def rowByEnclosure (rows : List BrushRow) (enclosure : Text) : Option BrushRow :=
  if enclosure = [] then none
  else rows.find? fun r => r.enclosure = enclosure ∧ r.Live

/-- The domain occurs in the link, as `LIKE` finds it. -/
def HasDomain (domain link : Text) : Prop := Text.like ('%' :: domain ++ ['%']) link = true

instance (domain link : Text) : Decidable (HasDomain domain link) :=
  inferInstanceAs (Decidable (_ = true))

/-- `get_brushtask_torrents_by_domain`. -/
def rowsByDomain (rows : List BrushRow) (domain : Text) : List BrushRow :=
  if domain = [] then []
  else rows.filter fun r => HasDomain domain r.enclosure ∧ r.Live

namespace SiteEngine

variable (e : SiteEngine)

/-- The loop over the records: one of them has the number. -/
def anyTid (tid : Text) : List BrushRow → Option Bool
  | [] => some false
  | r :: rows =>
    match e.getTidByUrl r.recordUrl with
    | none => none
    | some found => if found = some tid then some true else anyTid tid rows

/-- `is_torrent_handled`. -/
def isTorrentHandled (rows : List BrushRow) (x : BrushItem) : Option Bool :=
  if x.enclosure = [] ∧ x.pageUrl = [] then some false
  else match e.isTidBasedDedup x.dedupUrl with
  | none => none
  | some false => some (rowByEnclosure rows x.enclosure).isSome
  | some true =>
    match e.getTidByUrl x.dedupUrl with
    | none => none
    | some none => some false
    | some (some tid) =>
      if tid = [] then some false
      else match e.normalizeDomain x.dedupUrl with
      | none => none
      | some domain => e.anyTid tid (rowsByDomain rows domain)

variable {e} {rows : List BrushRow} {x : BrushItem} {tid : Text} {site : SiteDefinition}

theorem anyTid_eq_some (h : ∀ r ∈ rows, e.getTidByUrl r.recordUrl ≠ none) :
    e.anyTid tid rows = some (decide (∃ r ∈ rows, e.getTidByUrl r.recordUrl = some (some tid))) := by
  induction rows with
  | nil => simp [anyTid]
  | cons r rows ih =>
    have hrest := ih fun r hr => h r (List.mem_cons_of_mem _ hr)
    rw [anyTid]
    cases hr : e.getTidByUrl r.recordUrl with
    | none => exact absurd hr (h r List.mem_cons_self)
    | some found =>
      by_cases hfound : found = some tid
      · simp [hfound, hr]
      · simp [hfound, hr, hrest]

theorem isSome_rowByEnclosure {enclosure : Text} (h : enclosure ≠ []) :
    (rowByEnclosure rows enclosure).isSome = true ↔
      ∃ r ∈ rows, r.enclosure = enclosure ∧ r.Live := by
  simp [rowByEnclosure, h]

/-- Looking up by the link. -/
theorem handled_of_link (hbased : e.isTidBasedDedup x.dedupUrl = some false)
    (hx : x.enclosure ≠ []) : e.isTorrentHandled rows x =
      some (decide (∃ r ∈ rows, r.enclosure = x.enclosure ∧ r.Live)) := by
  simp only [isTorrentHandled, hx, false_and, if_false, hbased, Option.some.injEq]
  rw [Bool.eq_iff_iff, isSome_rowByEnclosure hx, decide_eq_true_iff]

theorem isTidBasedDedup_of_site {url : Text} (hsite : e.getByUrl url = some (some site)) :
    e.isTidBasedDedup url = some (decide (site.tidPattern ≠ [])) := by
  simp [isTidBasedDedup, hsite]

/-- Looking up by the number. -/
theorem handled_of_tid (hsite : e.getByUrl x.dedupUrl = some (some site))
    (hpattern : site.tidPattern ≠ []) (htid : e.getTidByUrl x.dedupUrl = some (some tid))
    (hne : tid ≠ []) (hx : x.dedupUrl ≠ [])
    (hrows : ∀ r ∈ rows, e.getTidByUrl r.recordUrl ≠ none) : e.isTorrentHandled rows x =
      some (decide (∃ r ∈ rowsByDomain rows site.domain,
        e.getTidByUrl r.recordUrl = some (some tid))) := by
  have hboth : ¬(x.enclosure = [] ∧ x.pageUrl = []) := by
    rintro ⟨hencl, hpage⟩
    exact hx (by simp [BrushItem.dedupUrl, hencl, hpage])
  have hdomain : e.normalizeDomain x.dedupUrl = some site.domain := by
    rw [normalizeDomain, hsite]
  have hsome : ∀ r ∈ rowsByDomain rows site.domain, e.getTidByUrl r.recordUrl ≠ none := by
    intro r hr
    simp only [rowsByDomain] at hr
    split_ifs at hr
    · cases hr
    · exact hrows r (List.mem_of_mem_filter hr)
  rw [isTorrentHandled, if_neg hboth, isTidBasedDedup_of_site hsite, decide_eq_true hpattern, htid,
    hdomain]
  simp only [if_neg hne]
  exact anyTid_eq_some hsome

end SiteEngine

end WolfNas
