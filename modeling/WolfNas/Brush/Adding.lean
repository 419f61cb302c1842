import WolfNas.Limit.SiteSpacing

/-!
# Adding a torrent to a downloader

A brush task adds the torrents that its feed offers.  Under the lock of the downloader it asks
how many of its torrents are unfinished, unless its rule sets no bound, and adds the torrent; what
the downloader answered is kept for half a minute.  A torrent that was added is recorded.

## Main definitions

* `ListedTorrent`, `DownloaderStats`, `BrushDownloader` — a downloader, and what is kept of it.
* `BrushDownloader.getStats` — `_get_downloader_stats`.
* `BrushRow`, `insertRow` — the records, `insert_brushtask_torrent`.
* `BrushCall`, `BrushHelper.downloadTorrent` — `download_torrent`.

## Main results

* `BrushDownloader.lockedPart_of_none`, `BrushDownloader.lockedPart_of_some` — the part under the
  lock, for a rule that sets no bound and for one that does.
-/

namespace WolfNas

open Text

/-! ## The downloader -/

/-- A torrent as the downloader lists it. -/
structure ListedTorrent where
  hash : Text
  progress : ℚ := 0
  labels : List Text := []
  deriving DecidableEq

/-- The torrent is not complete. -/
def ListedTorrent.Unfinished (t : ListedTorrent) : Prop := t.progress < 1

instance (t : ListedTorrent) : Decidable t.Unfinished := inferInstanceAs (Decidable (_ < _))

/-- What `_get_downloader_stats` counts. -/
structure DownloaderStats where
  downloading : ℕ
  hr : ℕ
  total : ℕ
  deriving DecidableEq

/-- A downloader with the helper's statistics of it, and when they were read.  `added` and `gone`
are no part of the program: how many torrents were added since, and how many that were unfinished
are so no more. -/
structure BrushDownloader where
  torrents : List ListedTorrent := []
  stats : Option (ℚ × DownloaderStats) := none
  added : ℕ := 0
  gone : ℕ := 0
  deriving DecidableEq

namespace BrushDownloader

variable {d : BrushDownloader}

/-- How many torrents are unfinished. -/
def unfinished (d : BrushDownloader) : ℕ := d.torrents.countP fun t => t.Unfinished

/-- What the downloader's torrents amount to. -/
def count (d : BrushDownloader) : DownloaderStats where
  downloading := d.unfinished
  hr := d.torrents.countP fun t => of "HR" ∈ t.labels ∧ ¬t.Unfinished
  total := d.torrents.length

/-- The statistics that were read less than half a minute ago. -/
def fresh (d : BrushDownloader) (now : ℚ) : Option DownloaderStats :=
  (d.stats.filter fun kept => now - kept.1 < 30).map Prod.snd

/-- `_get_downloader_stats`, of a downloader that answers or not. -/
def getStats (d : BrushDownloader) (now : ℚ) (answers : Bool) :
    Option DownloaderStats × BrushDownloader :=
  match d.fresh now with
  | some stats => (some stats, d)
  | none =>
    if answers then (some d.count, { d with stats := some (now, d.count), added := 0, gone := 0 })
    else (none, d)

/-- The downloader takes a torrent that it does not have. -/
def add (d : BrushDownloader) (t : ListedTorrent) : BrushDownloader :=
  if t.hash ∈ d.torrents.map ListedTorrent.hash then d
  else { d with torrents := d.torrents ++ [t], added := d.added + 1 }

/-- The torrents have changed, none having come. -/
def changed (d : BrushDownloader) (torrents : List ListedTorrent) : BrushDownloader :=
  { d with torrents, gone := d.gone + (d.unfinished - { d with torrents }.unfinished) }

/-- A torrent makes progress. -/
def makesProgress (d : BrushDownloader) (hash : Text) (progress : ℚ) : BrushDownloader :=
  d.changed (d.torrents.map fun t =>
    if t.hash = hash then { t with progress := max t.progress progress } else t)

/-- A torrent is removed. -/
def remove (d : BrushDownloader) (hash : Text) : BrushDownloader :=
  d.changed (d.torrents.filter fun t => t.hash ≠ hash)

end BrushDownloader

/-! ## The records -/

/-- A torrent of a feed, as its links tell; a link that is not there is blank. -/
structure BrushItem where
  enclosure : Text
  pageUrl : Text := []
  deriving DecidableEq

/-- The link as it is stored: a magnet link without its trackers, another one cut off. -/
def trimmedLink (enclosure : Text) : Text :=
  if enclosure.startsWith (of "magnet:") then enclosure.takeWhile (· != '&')
  else if 4000 < enclosure.length then enclosure.take 4000
  else enclosure

/-- A row of `SITE_BRUSH_TORRENTS`.  `items` is no part of it: the torrents of feeds that were
recorded with this row. -/
structure BrushRow where
  taskId : ℕ
  title : Text
  enclosure : Text
  downloadId : Text
  pageUrl : Text
  items : List BrushItem := []
  deriving DecidableEq

/-- The row is no tombstone. -/
def BrushRow.Live (r : BrushRow) : Prop := r.downloadId ≠ of "0"

instance (r : BrushRow) : Decidable r.Live := inferInstanceAs (Decidable (_ ≠ _))

/-- `is_brushtask_torrent_exists`, of one row. -/
def BrushRow.IsFor (r : BrushRow) (taskId : ℕ) (title link : Text) : Prop :=
  r.taskId = taskId ∧ r.title = title ∧ r.enclosure = link ∧ r.Live

instance (r : BrushRow) (taskId : ℕ) (title link : Text) : Decidable (r.IsFor taskId title link) :=
  inferInstanceAs (Decidable (_ ∧ _))

/-- `insert_brushtask_torrent`: a torrent that is recorded already is recorded with its row. -/
def insertRow (rows : List BrushRow) (taskId : ℕ) (title : Text) (item : BrushItem)
    (downloadId : Text) : List BrushRow :=
  let link := trimmedLink item.enclosure
  if taskId = 0 then rows
  else if ∃ r ∈ rows, r.IsFor taskId title link then
    rows.map fun r => if r.IsFor taskId title link then { r with items := r.items ++ [item] } else r
  else
    rows ++ [{ taskId, title, enclosure := link, downloadId, pageUrl := item.pageUrl,
               items := [item] }]

/-! ## `download_torrent` -/

/-- What the downloader answers: the id of the torrent; neither an id nor a message; a message. -/
inductive AddAnswer
  | id (downloadId : Text)
  | present
  | failed
  deriving DecidableEq

/-- A call of `download_torrent`. -/
structure BrushCall where
  taskId : ℕ
  downloader : Text
  title : Text := []
  item : BrushItem
  /-- `check_ratelimit`. -/
  limited : Bool := false
  /-- The rule for H&R, and whether the attributes of the torrent are known. -/
  hr : Text := []
  attrKnown : Bool := true
  labels : List Text := []
  dlcount : NoteValue
  time : ℚ
  /-- The downloader answers what torrents it has. -/
  lists : Bool := true
  answer : AddAnswer
  deriving DecidableEq

namespace BrushCall

/-- The call comes as far as the lock. -/
def GoesOn (c : BrushCall) : Prop :=
  c.item.enclosure ≠ [] ∧ c.limited = false ∧
    (c.hr.strip = [] ∨ c.hr.strip = of "#" ∨ c.hr.strip = of "N" ∨ c.attrKnown = true)

instance (c : BrushCall) : Decidable c.GoesOn := inferInstanceAs (Decidable (_ ∧ _))

/-- The rule bounds the unfinished torrents. -/
def Bounded (c : BrushCall) : Prop := c.dlcount.truthy = true

instance (c : BrushCall) : Decidable c.Bounded := inferInstanceAs (Decidable (_ = _))

end BrushCall

namespace BrushDownloader

variable {d : BrushDownloader} {c : BrushCall}

/-- What `download` leaves of the downloader. -/
def download (d : BrushDownloader) (c : BrushCall) : BrushDownloader :=
  match c.answer with
  | .id downloadId => d.add { hash := downloadId, labels := c.labels }
  | _ => d

/-- The part under the lock: whether it comes to `download`, and the downloader after it.  A
bound that is no number raises. -/
def lockedPart (d : BrushDownloader) (c : BrushCall) : Bool × BrushDownloader :=
  if c.Bounded then
    match d.getStats c.time c.lists, c.dlcount.asInt with
    | (some stats, d'), some bound =>
      if bound ≤ stats.downloading then (false, d') else (true, d'.download c)
    | (_, d'), _ => (false, d')
  else (true, d.download c)

/-- A rule that sets no bound. -/
theorem lockedPart_of_none (h : ¬c.Bounded) : d.lockedPart c = (true, d.download c) := if_neg h

/-- A rule that sets a bound. -/
theorem lockedPart_of_some (h : c.Bounded) {stats : DownloaderStats} {d' : BrushDownloader}
    {bound : ℤ} (hstats : d.getStats c.time c.lists = (some stats, d'))
    (hbound : c.dlcount.asInt = some bound) : d.lockedPart c =
      if bound ≤ stats.downloading then (false, d') else (true, d'.download c) := by
  simp only [lockedPart, if_pos h, hstats, hbound]

/-- A torrent is only added through the lock. -/
theorem lockedPart_cases (d : BrushDownloader) (c : BrushCall) :
    (¬c.Bounded ∧ d.lockedPart c = (true, d.download c)) ∨
      (c.Bounded ∧ ((d.lockedPart c = (false, (d.getStats c.time c.lists).2)) ∨
        ∃ stats bound, (d.getStats c.time c.lists).1 = some stats ∧ c.dlcount.asInt = some bound ∧
          (stats.downloading : ℤ) < bound ∧
          d.lockedPart c = (true, (d.getStats c.time c.lists).2.download c))) := by
  by_cases h : c.Bounded
  · refine .inr ⟨h, ?_⟩
    cases hstats : (d.getStats c.time c.lists).1 with
    | none =>
      left
      rw [lockedPart, if_pos h]
      rw [show d.getStats c.time c.lists = (none, (d.getStats c.time c.lists).2) from
        Prod.ext hstats rfl]
    | some stats =>
      have hpair : d.getStats c.time c.lists = (some stats, (d.getStats c.time c.lists).2) :=
        Prod.ext hstats rfl
      cases hbound : c.dlcount.asInt with
      | none =>
        left
        rw [lockedPart, if_pos h, hpair, hbound]
      | some bound =>
        rw [lockedPart_of_some h hpair hbound]
        by_cases hle : bound ≤ stats.downloading
        · exact .inl (if_pos hle)
        · exact .inr ⟨stats, bound, rfl, rfl, not_le.mp hle, if_neg hle⟩
  · exact .inl ⟨h, lockedPart_of_none h⟩

end BrushDownloader

/-- The helper: its downloaders by their ids, and the records.  `recorded` is no part of it: the
torrents that were ever recorded. -/
structure BrushHelper where
  downloaders : Text → BrushDownloader := fun _ => {}
  rows : List BrushRow := []
  recorded : List BrushItem := []

namespace BrushHelper

/-- The rows after the lock was given back. -/
def record (s : BrushHelper) (c : BrushCall) : BrushHelper :=
  match c.answer with
  | .id downloadId =>
    if c.taskId = 0 then s
    else { s with
      rows := insertRow s.rows c.taskId c.title c.item downloadId
      recorded := c.item :: s.recorded }
  | _ => s

/-- `download_torrent`. -/
def downloadTorrent (s : BrushHelper) (c : BrushCall) : BrushHelper :=
  if c.GoesOn then
    let locked := (s.downloaders c.downloader).lockedPart c
    let s := { s with downloaders := Function.update s.downloaders c.downloader locked.2 }
    if locked.1 then s.record c else s
  else s

end BrushHelper

end WolfNas
