import WolfNas.Brush.SiteLinks
import WolfNas.Lib.Run

/-!
# Torrents that were recorded count as handled

A torrent is recorded under its link, shortened, with the link of its page, and is looked up by
its raw link, or by the host of its page in the recorded link and the number in it.  Both agree for
links that are stored as they are, and for links that have the domain of their page's site in them
and of no other.

## Main definitions

* `BrushHistory` — calls of `download_torrent`, tombstones and deletions of records.
* `SiteEngine.SameTorrent` — two torrents of feeds are one, by site and number or by link.
* `SiteEngine.Recognises` — recorded torrents count as handled, and others do not.
* `SiteEngine.Plain` — a call that records a torrent so that it is found again.

## Main results

* `SiteEngine.RowKept` — what a record says of the torrents recorded with it; kept by every move.
* `SiteEngine.recognises_of_plain` — after every run of such calls recorded torrents are found,
  and no others.
-/

namespace WolfNas

open Text

/-- What happens to the records: a call, torrents that are marked as deleted, a record that is
removed. -/
inductive BrushHistory
  | call (c : BrushCall)
  | tombstone (ids : List (ℕ × Text))
  | delete (taskId : ℕ) (downloadId : Text)

namespace BrushHelper

/-- `update_brushtask_torrent_state`, of one row. -/
def tombstoned (ids : List (ℕ × Text)) (r : BrushRow) : BrushRow :=
  if (r.taskId, r.downloadId) ∈ ids then { r with downloadId := of "0" } else r

/-- `delete_brushtask_torrent`. -/
def deleteRows (rows : List BrushRow) (taskId : ℕ) (downloadId : Text) : List BrushRow :=
  if downloadId = [] ∨ taskId = 0 then rows
  else rows.filter fun r => ¬(r.taskId = taskId ∧ r.downloadId = downloadId)

/-- One move. -/
def happen (s : BrushHelper) : BrushHistory → BrushHelper
  | .call c => s.downloadTorrent c
  | .tombstone ids => { s with rows := s.rows.map (tombstoned ids) }
  | .delete taskId downloadId => { s with rows := deleteRows s.rows taskId downloadId }

/-- The id that a call records its torrent with. -/
def entry (s : BrushHelper) (c : BrushCall) : Option Text :=
  if c.GoesOn ∧ ((s.downloaders c.downloader).lockedPart c).1 = true ∧ c.taskId ≠ 0 then
    match c.answer with
    | .id downloadId => some downloadId
    | _ => none
  else none

/-- A call that records nothing. -/
theorem downloadTorrent_of_none {s : BrushHelper} {c : BrushCall} (h : s.entry c = none) :
    (s.downloadTorrent c).rows = s.rows ∧ (s.downloadTorrent c).recorded = s.recorded := by
  simp only [entry] at h
  by_cases hgoes : c.GoesOn
  · by_cases hlocked : ((s.downloaders c.downloader).lockedPart c).1 = true
    · by_cases htask : c.taskId = 0
      · simp only [downloadTorrent, hgoes, hlocked, if_true, record, htask]
        split <;> exact ⟨rfl, rfl⟩
      · rw [if_pos ⟨hgoes, hlocked, htask⟩] at h
        cases hanswer : c.answer with
        | id downloadId => simp [hanswer] at h
        | present => simp [downloadTorrent, hgoes, hlocked, record, hanswer]
        | failed => simp [downloadTorrent, hgoes, hlocked, record, hanswer]
    · simp [downloadTorrent, hgoes, hlocked]
  · simp [downloadTorrent, hgoes]

/-- A call that records its torrent. -/
theorem downloadTorrent_of_some {s : BrushHelper} {c : BrushCall} {downloadId : Text}
    (h : s.entry c = some downloadId) :
    (s.downloadTorrent c).rows = insertRow s.rows c.taskId c.title c.item downloadId ∧
      (s.downloadTorrent c).recorded = c.item :: s.recorded ∧ c.GoesOn ∧ c.taskId ≠ 0 := by
  simp only [entry] at h
  split_ifs at h with hall
  obtain ⟨hgoes, hlocked, htask⟩ := hall
  cases hanswer : c.answer with
  | id found =>
    simp only [hanswer, Option.some.injEq] at h
    subst h
    refine ⟨?_, ?_, hgoes, htask⟩
    · simp [downloadTorrent, hgoes, hlocked, record, hanswer, htask]
    · simp [downloadTorrent, hgoes, hlocked, record, hanswer, htask]
  | present => simp [hanswer] at h
  | failed => simp [hanswer] at h

end BrushHelper

/-- Where the rows come from that are there after a torrent was recorded. -/
theorem mem_insertRow {rows : List BrushRow} {taskId : ℕ} {title : Text} {x : BrushItem}
    {downloadId : Text} {r : BrushRow} (hr : r ∈ insertRow rows taskId title x downloadId) :
    r ∈ rows ∨
      (∃ r' ∈ rows, r'.IsFor taskId title (trimmedLink x.enclosure) ∧
        r = { r' with items := r'.items ++ [x] }) ∨
      r = { taskId, title, enclosure := trimmedLink x.enclosure, downloadId, pageUrl := x.pageUrl,
            items := [x] } := by
  simp only [insertRow] at hr
  split_ifs at hr with htask hthere
  · exact .inl hr
  · obtain ⟨r', hr', rfl⟩ := List.mem_map.mp hr
    by_cases hfor : r'.IsFor taskId title (trimmedLink x.enclosure)
    · exact .inr (.inl ⟨r', hr', hfor, if_pos hfor⟩)
    · left
      rwa [if_neg hfor]
  · rcases List.mem_append.mp hr with hr | hr
    · exact .inl hr
    · exact .inr (.inr (List.mem_singleton.mp hr))

namespace SiteEngine

variable {e : SiteEngine} {s : BrushHelper}

/-! ## What is asked for -/

/-- A site that the engine knows. -/
def Knows (e : SiteEngine) (site : SiteDefinition) : Prop :=
  site ∈ e.sites ∨ ∃ host, e.domainIndex host = some site

theorem knows_of_getByUrl {url : Text} {site : SiteDefinition}
    (h : e.getByUrl url = some (some site)) : e.Knows site := by
  simp only [getByUrl] at h
  split_ifs at h
  · simp at h
  · obtain ⟨parts, -, hsite⟩ := Option.map_eq_some_iff.mp h
    by_cases hnetloc : parts.netloc ≠ []
    · simp only [if_pos hnetloc] at hsite
      split_ifs at hsite
      · exact .inr ⟨parts.netloc, hsite⟩
      · exact .inl (List.mem_of_find?_eq_some hsite)
    · simp only [if_neg hnetloc, Option.isSome_none, Bool.false_eq_true, if_false] at hsite
      exact .inl (List.mem_of_find?_eq_some hsite)

/-- Two torrents of feeds are one: by site and number, where the site has numbers; else by the
link, raw or as it is stored. -/
def SameTorrent (e : SiteEngine) (x y : BrushItem) : Prop :=
  if e.isTidBasedDedup x.dedupUrl = some true then
    e.getByUrl y.dedupUrl = e.getByUrl x.dedupUrl ∧ e.getTidByUrl y.dedupUrl = e.getTidByUrl x.dedupUrl
  else y.enclosure = x.enclosure ∨ trimmedLink y.enclosure = x.enclosure

/-- Torrents recorded in a live row count as handled, and those that were never recorded do
not. -/
structure Recognises (e : SiteEngine) (s : BrushHelper) : Prop where
  found : ∀ r ∈ s.rows, r.Live → ∀ x ∈ r.items, e.isTorrentHandled s.rows x = some true
  clean : ∀ x : BrushItem, e.Readable x.dedupUrl → (∀ y ∈ s.recorded, ¬e.SameTorrent x y) →
    e.isTorrentHandled s.rows x = some false

/-! ## Plain calls -/

/-- A link that the lookup of a torrent finds: it is the torrent's own, where its site has no
numbers; else the site's domain is in it. -/
structure Leads (e : SiteEngine) (x : BrushItem) (link : Text) : Prop where
  same : e.isTidBasedDedup x.dedupUrl = some false → link = x.enclosure
  domain : ∀ site, e.getByUrl x.dedupUrl = some (some site) → site.tidPattern ≠ [] →
    site.domain ≠ [] ∧ HasDomain site.domain link

/-- The links can be read, and the torrent has a number where its site has numbers. -/
structure Numbered (e : SiteEngine) (x : BrushItem) : Prop where
  readable : e.Readable x.dedupUrl
  tid : e.isTidBasedDedup x.dedupUrl = some true →
    ∃ tid, e.getTidByUrl x.dedupUrl = some (some tid) ∧ tid ≠ []

/-- A call that records a torrent so that it is found again, and no other for it: its link leads
to it; what is stored has its number; no other site's domain is in the link; and a record that is
there already has its number too. -/
structure Plain (e : SiteEngine) (s : BrushHelper) (c : BrushCall) : Prop where
  numbered : e.Numbered c.item
  leads : e.Leads c.item (trimmedLink c.item.enclosure)
  stored : c.item.pageUrl = [] → e.getTidByUrl (trimmedLink c.item.enclosure) =
    e.getTidByUrl c.item.enclosure
  own : ∀ site, e.Knows site → site.tidPattern ≠ [] → site.domain ≠ [] →
    HasDomain site.domain (trimmedLink c.item.enclosure) →
      e.getByUrl c.item.dedupUrl = some (some site)
  again : ∀ r ∈ s.rows, r.IsFor c.taskId c.title (trimmedLink c.item.enclosure) →
    e.isTidBasedDedup c.item.dedupUrl = some true →
      e.getTidByUrl r.recordUrl = e.getTidByUrl c.item.dedupUrl

/-- Every move that records a torrent is such a call. -/
def PlainMove (e : SiteEngine) (s : BrushHelper) : BrushHistory → Prop
  | .call c => (s.entry c).isSome = true → e.Plain s c
  | _ => True

/-! ## What the records say -/

/-- What a record says of a torrent that is recorded with it. -/
structure Fits (e : SiteEngine) (r : BrushRow) (x : BrushItem) : Prop where
  ne : x.enclosure ≠ []
  numbered : e.Numbered x
  leads : e.Leads x r.enclosure
  tid : e.isTidBasedDedup x.dedupUrl = some true →
    e.getTidByUrl r.recordUrl = e.getTidByUrl x.dedupUrl

/-- What a record says of the torrents recorded with it, the first one of them. -/
structure RowKept (e : SiteEngine) (recorded : List BrushItem) (r : BrushRow) : Prop where
  fits : ∀ x ∈ r.items, e.Fits r x
  readable : e.getTidByUrl r.recordUrl ≠ none
  first : ∃ y ∈ recorded, r.enclosure = trimmedLink y.enclosure ∧
    e.getTidByUrl y.dedupUrl = e.getTidByUrl r.recordUrl ∧
    ∀ site, e.Knows site → site.tidPattern ≠ [] → site.domain ≠ [] →
      HasDomain site.domain r.enclosure → e.getByUrl y.dedupUrl = some (some site)

/-- The records are kept so. -/
def Kept (e : SiteEngine) (s : BrushHelper) : Prop := ∀ r ∈ s.rows, e.RowKept s.recorded r

theorem RowKept.mono {recorded recorded' : List BrushItem} {r : BrushRow}
    (h : e.RowKept recorded r) (hsub : recorded ⊆ recorded') : e.RowKept recorded' r := by
  obtain ⟨y, hy, hrest⟩ := h.first
  exact ⟨h.fits, h.readable, y, hsub hy, hrest⟩

/-- The id of a record does not matter. -/
theorem RowKept.withId {recorded : List BrushItem} {r : BrushRow} (h : e.RowKept recorded r)
    (downloadId : Text) : e.RowKept recorded { r with downloadId } where
  fits := fun x hx => ⟨(h.fits x hx).ne, (h.fits x hx).numbered, (h.fits x hx).leads,
    (h.fits x hx).tid⟩
  readable := h.readable
  first := h.first

theorem dedupUrl_ne_nil {x : BrushItem} (h : x.enclosure ≠ []) : x.dedupUrl ≠ [] := by
  rw [BrushItem.dedupUrl]
  split_ifs with hpage
  · exact hpage
  · exact h

/-- The record that a plain call adds. -/
theorem rowKept_new {c : BrushCall} (hc : e.Plain s c) (hne : c.item.enclosure ≠ [])
    (downloadId : Text) : e.RowKept (c.item :: s.recorded)
      { taskId := c.taskId, title := c.title, enclosure := trimmedLink c.item.enclosure,
        downloadId, pageUrl := c.item.pageUrl, items := [c.item] } := by
  have htid : e.getTidByUrl (BrushRow.recordUrl
      { taskId := c.taskId, title := c.title, enclosure := trimmedLink c.item.enclosure,
        downloadId, pageUrl := c.item.pageUrl, items := [c.item] }) =
      e.getTidByUrl c.item.dedupUrl := by
    by_cases hpage : c.item.pageUrl = []
    · simp [BrushRow.recordUrl, BrushItem.dedupUrl, hpage, hc.stored hpage]
    · simp [BrushRow.recordUrl, BrushItem.dedupUrl, hpage]
  refine ⟨?_, ?_, c.item, List.mem_cons_self, rfl, htid.symm, hc.own⟩
  · intro x hx
    obtain rfl := List.mem_singleton.mp hx
    exact ⟨hne, hc.numbered, hc.leads, fun _ => htid⟩
  · obtain ⟨tid, hsome⟩ := exists_getTidByUrl hc.numbered.readable
    rw [htid, hsome]
    simp

/-- A record that a plain call finds. -/
theorem rowKept_again {c : BrushCall} (hc : e.Plain s c) (hne : c.item.enclosure ≠ [])
    {r : BrushRow} (hr : r ∈ s.rows)
    (hfor : r.IsFor c.taskId c.title (trimmedLink c.item.enclosure))
    (hkept : e.RowKept s.recorded r) :
    e.RowKept (c.item :: s.recorded) { r with items := r.items ++ [c.item] } := by
  have hmore := hkept.mono (List.subset_cons_self c.item s.recorded)
  refine ⟨?_, hmore.readable, hmore.first⟩
  intro x hx
  rcases List.mem_append.mp hx with hx | hx
  · exact ⟨(hmore.fits x hx).ne, (hmore.fits x hx).numbered, (hmore.fits x hx).leads,
      (hmore.fits x hx).tid⟩
  · obtain rfl := List.mem_singleton.mp hx
    have hlink : r.enclosure = trimmedLink c.item.enclosure := hfor.2.2.1
    refine ⟨hne, hc.numbered, ?_, hc.again r hr hfor⟩
    change e.Leads c.item r.enclosure
    rw [hlink]
    exact hc.leads

/-- A plain move keeps the records so. -/
theorem kept_happen (h : e.Kept s) {move : BrushHistory} (hmove : e.PlainMove s move) :
    e.Kept (s.happen move) := by
  cases move with
  | call c =>
    change e.Kept (s.downloadTorrent c)
    cases hentry : s.entry c with
    | none =>
      obtain ⟨hrows, hrecorded⟩ := BrushHelper.downloadTorrent_of_none hentry
      intro r hr
      rw [hrecorded]
      exact h r (hrows ▸ hr)
    | some downloadId =>
      obtain ⟨hrows, hrecorded, hgoes, -⟩ := BrushHelper.downloadTorrent_of_some hentry
      have hplain := hmove (by rw [hentry]; rfl)
      intro r hr
      rw [hrows] at hr
      rw [hrecorded]
      rcases mem_insertRow hr with hr | ⟨r', hr', hfor, rfl⟩ | rfl
      · exact (h r hr).mono (List.subset_cons_self _ _)
      · exact rowKept_again hplain hgoes.1 hr' hfor (h r' hr')
      · exact rowKept_new hplain hgoes.1 downloadId
  | tombstone ids =>
    intro r hr
    obtain ⟨r', hr', rfl⟩ := List.mem_map.mp hr
    rw [BrushHelper.tombstoned]
    split_ifs
    · exact (h r' hr').withId _
    · exact h r' hr'
  | delete taskId downloadId =>
    intro r hr
    simp only [BrushHelper.happen, BrushHelper.deleteRows] at hr
    split_ifs at hr
    · exact h r hr
    · exact h r (List.mem_of_mem_filter hr)

/-! ## What is looked up -/

/-- A link that can be read belongs to a site with numbers, or to none. -/
theorem site_cases {url : Text} (h : e.Readable url) :
    e.isTidBasedDedup url = some false ∨ ∃ site, e.getByUrl url = some (some site) ∧
      site.tidPattern ≠ [] ∧ e.isTidBasedDedup url = some true := by
  obtain ⟨site, hsite⟩ := exists_getByUrl h
  cases site with
  | none =>
    left
    simp [isTidBasedDedup, hsite]
  | some site =>
    rw [isTidBasedDedup_of_site hsite]
    by_cases hpattern : site.tidPattern = []
    · left
      simp [hpattern]
    · right
      exact ⟨site, hsite, hpattern, by simp [hpattern]⟩

theorem mem_rowsByDomain {rows : List BrushRow} {domain : Text} (hdomain : domain ≠ [])
    {r : BrushRow} :
    r ∈ rowsByDomain rows domain ↔ r ∈ rows ∧ HasDomain domain r.enclosure ∧ r.Live := by
  simp [rowsByDomain, hdomain]

/-- Recorded torrents are found. -/
theorem found_of_kept (h : e.Kept s) {r : BrushRow} (hr : r ∈ s.rows) (hlive : r.Live)
    {x : BrushItem} (hx : x ∈ r.items) : e.isTorrentHandled s.rows x = some true := by
  have hfits := (h r hr).fits x hx
  rcases site_cases hfits.numbered.readable with hbased | ⟨site, hsite, hpattern, hbased⟩
  · rw [handled_of_link hbased hfits.ne, Option.some.injEq, decide_eq_true_iff]
    exact ⟨r, hr, hfits.leads.same hbased, hlive⟩
  · obtain ⟨tid, htid, htidne⟩ := hfits.numbered.tid hbased
    obtain ⟨hdomain, hlink⟩ := hfits.leads.domain site hsite hpattern
    rw [handled_of_tid hsite hpattern htid htidne (dedupUrl_ne_nil hfits.ne)
      fun r hr => (h r hr).readable, Option.some.injEq, decide_eq_true_iff]
    exact ⟨r, (mem_rowsByDomain hdomain).mpr ⟨hr, hlink, hlive⟩, (hfits.tid hbased).trans htid⟩

/-- Torrents that were never recorded are not. -/
theorem clean_of_kept (h : e.Kept s) {x : BrushItem} (hread : e.Readable x.dedupUrl)
    (hnew : ∀ y ∈ s.recorded, ¬e.SameTorrent x y) : e.isTorrentHandled s.rows x = some false := by
  by_cases hblank : x.enclosure = [] ∧ x.pageUrl = []
  · rw [isTorrentHandled, if_pos hblank]
  rcases site_cases hread with hbased | ⟨site, hsite, hpattern, hbased⟩
  · by_cases hx : x.enclosure = []
    · simp [isTorrentHandled, hbased, rowByEnclosure, hx]
    · rw [handled_of_link hbased hx, Option.some.injEq, decide_eq_false_iff_not]
      rintro ⟨r, hr, hlink, -⟩
      obtain ⟨y, hy, hstored, -⟩ := (h r hr).first
      refine hnew y hy ?_
      rw [SameTorrent, hbased, if_neg (by simp)]
      exact .inr (hstored.symm.trans hlink)
  · obtain ⟨tid, htid⟩ := exists_getTidByUrl hread
    have hdedup : x.dedupUrl ≠ [] := by
      intro hnil
      rw [hnil, getByUrl, if_pos rfl] at hsite
      cases hsite
    have hrest : ∀ tid', tid = some tid' → tid' ≠ [] →
        e.isTorrentHandled s.rows x = some false := by
      rintro tid' rfl hne
      rw [handled_of_tid hsite hpattern htid hne hdedup fun r hr => (h r hr).readable,
        Option.some.injEq, decide_eq_false_iff_not]
      rintro ⟨r, hr, hsame⟩
      have hdomain : site.domain ≠ [] := by
        intro hnil
        simp [rowsByDomain, hnil] at hr
      obtain ⟨hrows, hlink, -⟩ := (mem_rowsByDomain hdomain).mp hr
      obtain ⟨y, hy, hstored, hnumber, hown⟩ := (h r hrows).first
      refine hnew y hy ?_
      rw [SameTorrent, hbased, if_pos rfl, hsite, htid, hnumber, hsame]
      exact ⟨hown site (knows_of_getByUrl hsite) hpattern hdomain hlink, rfl⟩
    cases tid with
    | none => simp [isTorrentHandled, hblank, hbased, htid]
    | some tid' =>
      by_cases hne : tid' = []
      · simp [isTorrentHandled, hblank, hbased, htid, hne]
      · exact hrest tid' rfl hne

/-- In every history of downloads, tombstones and deletions whose calls record torrents with links
that lead to them and to no other site, recorded torrents count as handled, until they are marked
as deleted, and torrents that were never recorded do not. -/
theorem recognises_of_plain (downloaders : Text → BrushDownloader) (moves : List BrushHistory)
    (h : Run.Along BrushHelper.happen e.PlainMove { downloaders } moves) :
    ∀ n, e.Recognises (Run.stateAt BrushHelper.happen { downloaders } moves n) := by
  intro n
  have hempty : e.Kept { downloaders } := by
    intro r hr
    cases hr
  have hkept : e.Kept (Run.stateAt BrushHelper.happen { downloaders } moves n) :=
    Run.invariant_along e.Kept hempty (h.take n) fun s move hs hm => kept_happen hs hm
  exact ⟨fun r hr hlive x hx => found_of_kept hkept hr hlive hx,
    fun x hread hnew => clean_of_kept hkept hread hnew⟩

/-- A site whose torrents have numbers. -/
def numberedSite : SiteDefinition := { domain := of "pt.com" }

/-- A torrent of it. -/
def numberedCall : BrushCall :=
  { taskId := 1, downloader := of "1", dlcount := .null, time := 0, answer := .id (of "a"),
    item := { enclosure := of "https://pt.com/dl/5", pageUrl := of "https://pt.com/detail/5" } }

theorem plain_numberedCall : Plain { sites := [numberedSite] } {} numberedCall := by
  have hsite : getByUrl { sites := [numberedSite] } numberedCall.item.dedupUrl =
      some (some numberedSite) := by decide +kernel
  have hbased : isTidBasedDedup { sites := [numberedSite] } numberedCall.item.dedupUrl =
      some true := by decide +kernel
  refine ⟨⟨by decide +kernel, fun _ => ⟨of "5", by decide +kernel, by decide⟩⟩, ⟨?_, ?_⟩, ?_, ?_, ?_⟩
  · intro h
    rw [hbased] at h
    cases h
  · intro site h _
    rw [hsite] at h
    cases h
    decide +kernel
  · intro h
    exact absurd h (by decide)
  · intro site hknows _ _ _
    rcases hknows with hmem | ⟨host, h⟩
    · rw [List.mem_singleton.mp hmem, hsite]
    · cases h
  · intro r hr
    cases hr

/-- It is found after its download. -/
theorem recognises_numberedCall : Recognises { sites := [numberedSite] }
    (Run.stateAt BrushHelper.happen {} [.call numberedCall] 1) :=
  recognises_of_plain (fun _ => {}) [.call numberedCall] ⟨fun _ => plain_numberedCall, trivial⟩ 1

/-- A magnet link with a tracker. -/
def magnetCall : BrushCall :=
  { taskId := 1, downloader := of "1", dlcount := .null, time := 0, answer := .id (of "a"),
    item := { enclosure := of "magnet:?xt=urn:btih:a&tr=t" } }

/-- It is recorded without the tracker, and not found with it. -/
theorem magnet_missed : ∃ r ∈ (BrushHelper.happen {} (.call magnetCall)).rows, r.Live ∧
    ∃ x ∈ r.items, isTorrentHandled { sites := [] }
      (BrushHelper.happen {} (.call magnetCall)).rows x = some false := by
  decide +kernel

end SiteEngine

end WolfNas
