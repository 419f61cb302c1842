import WolfNas.Lib.Text

/-!
# Media references and the keys built from them

Upper layers never compare two works directly: they compare texts.  A work is condensed
into a key by `mediaIdentityKey` or `mediaSeriesScopeKey`, and two keys are the same work
where `identityKeysMatch` says so.

## Main definitions

* `MediaType`, `IdValue`, `MediaRef`, `MediaInfo` — the data the keys are read from.
* `normalizeIdentityKey` — the normal form of a key, and `identityKeysMatch` on it.
* `MediaInfo.getMediaRef`, `mediaIdentityKey`, `mediaSeriesScopeKey` — the keys of a work.
* `KeySource`, `keySource` — which of the filled fields a work's key is read from.
* `KeySource.normalForm` — the normal form that source leads to.
-/

namespace WolfNas

/-- The kinds of media. -/
inductive MediaType
  | tv
  | movie
  | anime
  | unknown
  deriving DecidableEq, Repr

/-- `MediaType.value`. -/
def MediaType.value : MediaType → Text
  | tv => .of "tv"
  | movie => .of "movie"
  | anime => .of "anime"
  | unknown => .of "unknown"

/-- `MediaType.from_string`. -/
def MediaType.fromString (value : Text) : MediaType :=
  let normalized := value.strip.lower
  if normalized = .of "movie" ∨ normalized = .of "电影" then movie
  else if normalized ∈ ["tv", "series", "show", "电视剧"].map Text.of then tv
  else if normalized = .of "anime" ∨ normalized = .of "动漫" then anime
  else unknown

/-- An external id: the code keeps a number or a text, and clears it to `None`. -/
inductive IdValue
  | none
  | int (n : ℤ)
  | text (s : Text)
  deriving DecidableEq, Repr

/-- `str(value or "")`. -/
def IdValue.toText : IdValue → Text
  | .none => []
  | .int n => if n = 0 then [] else Text.ofInt n
  | .text s => s

/-- `bool(value)`. -/
def IdValue.truthy (v : IdValue) : Bool := !v.toText.isEmpty

/-- `str(value or "")` for an optional text. -/
def orEmpty : Option Text → Text
  | none => []
  | some s => s

/-- The anchor of a work at a metadata provider. -/
structure MediaRef where
  /-- The provider's name. -/
  provider : Text
  /-- The work's id at that provider. -/
  externalId : Text
  deriving DecidableEq, Repr

/-- The fields of an identified media item that the verified code reads. -/
structure MediaInfo where
  type : Option MediaType := none
  contentProfile : Text := Text.of "default"
  anchorProvider : Option Text := none
  anchorExternalId : Option Text := none
  identityId : Option Text := none
  seriesKey : Option Text := none
  provider : Option Text := none
  metadataRef : Option Text := none
  beginSeason : Option ℕ := none
  endSeason : Option ℕ := none
  totalEpisodes : ℕ := 0
  beginEpisode : Option ℕ := none
  endEpisode : Option ℕ := none
  part : Option Text := none
  tmdbId : IdValue := .int 0
  doubanId : IdValue := .int 0
  orgString : Option Text := none
  revString : Option Text := none
  cnName : Option Text := none
  enName : Option Text := none
  title : Option Text := none
  year : Option Text := none
  site : Option Text := none
  resourcePix : Option Text := none
  resourceEffect : Option Text := none
  category : Option Text := none
  enclosure : Option Text := none
  /-- The seasons of the provider's details, each with its number of episodes. -/
  seasonCounts : List (ℕ × ℕ) := []
  deriving DecidableEq, Repr

/-! ## The normal form of a key -/

/-- `normalize_identity_key`, on a text without blank ends. -/
def normalizeStripped (text : Text) : Text :=
  if text = [] then []
  else if text.upper.startsWith (.of "DB:") then Text.of "douban:" ++ text.drop 3
  else if text.upper.startsWith (.of "BG:") then Text.of "bangumi:" ++ text.drop 3
  else if text.upper.startsWith (.of "TMDB:") then Text.of "tmdb:" ++ text.drop 5
  else if text.startsWith (.of "id:") then text
  else if ':' ∈ text then text.beforeColon.strip.lower.joinColon text.afterColon.strip
  else if text.isDigit then Text.of "tmdb:" ++ text
  else text

/-- `normalize_identity_key`. -/
def normalizeIdentityKey (value : IdValue) : Text := normalizeStripped value.toText.strip

/-- `identity_keys_match`. -/
def identityKeysMatch (left right : IdValue) : Bool :=
  !(normalizeIdentityKey left).isEmpty &&
    normalizeIdentityKey left == normalizeIdentityKey right

/-- The normal form of the key with `provider` before its first colon and `external`
after it: the three abbreviated providers are spelled out, `id:` is kept as it is, and any
other provider is put into lower case. -/
def normalParts (provider external : Text) : Text :=
  if provider.upper = Text.of "DB" then (Text.of "douban").joinColon external
  else if provider.upper = Text.of "BG" then (Text.of "bangumi").joinColon external
  else if provider.upper = Text.of "TMDB" then (Text.of "tmdb").joinColon external
  else if provider = Text.of "id" then provider.joinColon external
  else provider.strip.lower.joinColon external.strip

private theorem drop_of_upper_beforeColon {s q : Text} (h : ':' ∈ s)
    (hq : s.beforeColon.upper = q) : s.drop (q.length + 1) = s.afterColon := by
  have hlen : q.length = s.beforeColon.length := by simp [← hq, Text.upper]
  rw [hlen, Text.drop_beforeColon h]

private theorem startsWith_upper_iff {s : Text} (h : ':' ∈ s) (q : Text) (hq : ':' ∉ q) :
    s.upper.startsWith (q.joinColon []) = true ↔ s.beforeColon.upper = q := by
  rw [Text.startsWith_colon_iff hq, Text.colon_mem_upper, Text.upper_beforeColon]
  exact and_iff_right h

private theorem startsWith_iff {s : Text} (h : ':' ∈ s) (q : Text) (hq : ':' ∉ q) :
    s.startsWith (q.joinColon []) = true ↔ s.beforeColon = q := by
  rw [Text.startsWith_colon_iff hq]
  exact and_iff_right h

/-- On a text with a colon, the normal form is decided by its two parts. -/
theorem normalizeStripped_of_colon {s : Text} (h : ':' ∈ s) :
    normalizeStripped s = normalParts s.beforeColon s.afterColon := by
  have hne : s ≠ [] := List.ne_nil_of_mem h
  have hdb : s.upper.startsWith (.of "DB:") = true ↔ s.beforeColon.upper = .of "DB" :=
    startsWith_upper_iff h (.of "DB") (by decide)
  have hbg : s.upper.startsWith (.of "BG:") = true ↔ s.beforeColon.upper = .of "BG" :=
    startsWith_upper_iff h (.of "BG") (by decide)
  have htm : s.upper.startsWith (.of "TMDB:") = true ↔ s.beforeColon.upper = .of "TMDB" :=
    startsWith_upper_iff h (.of "TMDB") (by decide)
  have hid : s.startsWith (.of "id:") = true ↔ s.beforeColon = .of "id" :=
    startsWith_iff h (.of "id") (by decide)
  rw [normalizeStripped, normalParts]
  rw [if_neg hne]
  by_cases h₁ : s.beforeColon.upper = Text.of "DB"
  · rw [if_pos (hdb.mpr h₁), if_pos h₁, ← drop_of_upper_beforeColon h h₁]
    rfl
  rw [if_neg (mt hdb.mp h₁), if_neg h₁]
  by_cases h₂ : s.beforeColon.upper = Text.of "BG"
  · rw [if_pos (hbg.mpr h₂), if_pos h₂, ← drop_of_upper_beforeColon h h₂]
    rfl
  rw [if_neg (mt hbg.mp h₂), if_neg h₂]
  by_cases h₃ : s.beforeColon.upper = Text.of "TMDB"
  · rw [if_pos (htm.mpr h₃), if_pos h₃, ← drop_of_upper_beforeColon h h₃]
    rfl
  rw [if_neg (mt htm.mp h₃), if_neg h₃]
  by_cases h₄ : s.beforeColon = Text.of "id"
  · rw [if_pos (hid.mpr h₄), if_pos h₄, Text.joinColon_parts h]
  rw [if_neg (mt hid.mp h₄), if_neg h₄, if_pos h]

/-- A key with a colon keeps one: its normal form is again a provider and an id. -/
theorem colon_mem_normalParts (p e : Text) : ':' ∈ normalParts p e := by
  rw [normalParts]
  split_ifs <;> exact Text.colon_mem_joinColon _ _

/-- The normal form of a blank key is blank, and of no other key. -/
theorem normalizeStripped_eq_nil {s : Text} : normalizeStripped s = [] ↔ s = [] := by
  by_cases hc : ':' ∈ s
  · have hne : s ≠ [] := List.ne_nil_of_mem hc
    have hn : normalizeStripped s ≠ [] := by
      rw [normalizeStripped_of_colon hc]
      exact List.ne_nil_of_mem (colon_mem_normalParts _ _)
    simp [hne, hn]
  · rw [normalizeStripped]
    split_ifs <;> simp_all

/-! ## The keys of a work -/

namespace MediaInfo

/-- `get_media_ref`. -/
def getMediaRef (m : MediaInfo) : Option MediaRef :=
  let provider := orEmpty m.anchorProvider
  let external := orEmpty m.anchorExternalId
  let raw := m.tmdbId.toText.strip
  if provider ≠ [] ∧ external ≠ [] then some ⟨provider, external⟩
  else if raw.upper.startsWith (.of "DB:") ∧ raw.drop 3 ≠ [] then
    some ⟨.of "douban", raw.drop 3⟩
  else if raw.upper.startsWith (.of "BG:") ∧ raw.drop 3 ≠ [] then
    some ⟨.of "bangumi", raw.drop 3⟩
  else if raw.upper.startsWith (.of "TMDB:") ∧ raw.drop 5 ≠ [] then
    some ⟨.of "tmdb", raw.drop 5⟩
  else if raw.isDigit then some ⟨.of "tmdb", raw⟩
  else if m.doubanId.truthy then some ⟨.of "douban", m.doubanId.toText⟩
  else none

/-- `int(get_season_seq())`: no season for a film without one, and the first season for
anything else. -/
def seasonSeq (m : MediaInfo) : Option ℕ :=
  match m.beginSeason with
  | some n => some n
  | none => if m.type = some .movie then none else some 1

/-- `get_season_string`. -/
def getSeasonString (m : MediaInfo) : Text :=
  if m.type = some .movie then []
  else match m.beginSeason, m.endSeason with
    | none, _ => Text.of "S01"
    | some b, none => 'S' :: Text.pad2 b
    | some b, some e =>
      if e = b then 'S' :: Text.pad2 b
      else 'S' :: Text.pad2 b ++ Text.of "-S" ++ Text.pad2 e

/-- `get_season_list`. -/
def getSeasonList (m : MediaInfo) : List ℕ :=
  match m.beginSeason, m.endSeason with
  | none, _ => if m.type = some .movie then [] else [1]
  | some b, some e => List.range' b (e + 1 - b)
  | some b, none => [b]

/-- `get_episode_list`. -/
def getEpisodeList (m : MediaInfo) : List ℕ :=
  match m.beginEpisode, m.endEpisode with
  | none, _ => []
  | some b, some e => List.range' b (e + 1 - b)
  | some b, none => [b]

end MediaInfo

/-- `media_identity_key`.  The fallback on the anchor fields comes after `get_media_ref`,
which has read them already. -/
def mediaIdentityKey (m : MediaInfo) : Text :=
  if (orEmpty m.identityId).strip ≠ [] then
    Text.of "id:" ++ (orEmpty m.identityId).strip
  else match m.getMediaRef with
    | some ref => normalizeIdentityKey (.text (ref.provider.joinColon ref.externalId))
    | none => normalizeIdentityKey m.tmdbId

/-- `media_series_scope_key`. -/
def mediaSeriesScopeKey (m : MediaInfo) : Text :=
  let seriesKey := (orEmpty m.seriesKey).strip
  if seriesKey = [] then mediaIdentityKey m
  else match m.seasonSeq with
    | none => seriesKey
    | some n => seriesKey.joinColon ('S' :: Text.pad2 n)

/-! ## Normal forms of the keys -/

/-- An identity key is its own normal form. -/
theorem normalizeIdentityKey_id {i : Text} (hi : Text.Trimmed i) (hne : i ≠ []) :
    normalizeIdentityKey (.text (Text.of "id:" ++ i)) = Text.of "id:" ++ i := by
  have hstrip : (Text.of "id:" ++ i).strip = Text.of "id:" ++ i := by
    rw [Text.strip_append hi hne]
    rfl
  have hcolon : ':' ∈ Text.of "id:" ++ i := by simp [Text.of]
  have hjoin : Text.of "id:" ++ i = (Text.of "id").joinColon i := by simp [Text.of, Text.joinColon]
  have hid : ':' ∉ Text.of "id" := by decide
  calc normalizeIdentityKey (.text (Text.of "id:" ++ i))
      = normalizeStripped (Text.of "id:" ++ i) := by rw [normalizeIdentityKey, IdValue.toText, hstrip]
    _ = normalParts (Text.of "id") i := by
      rw [normalizeStripped_of_colon hcolon, hjoin, Text.beforeColon_joinColon hid,
        Text.afterColon_joinColon hid]
    _ = Text.of "id:" ++ i := by
      rw [hjoin]
      rfl

/-- The key of an item with an identity is that identity. -/
theorem mediaIdentityKey_of_identity {m : MediaInfo} (h : (orEmpty m.identityId).strip ≠ []) :
    mediaIdentityKey m = Text.of "id:" ++ (orEmpty m.identityId).strip := by
  rw [mediaIdentityKey, if_pos h]

/-- The key of an item without an identity is the normal form of its reference. -/
theorem mediaIdentityKey_of_ref {m : MediaInfo} {ref : MediaRef}
    (h : (orEmpty m.identityId).strip = []) (href : m.getMediaRef = some ref) :
    mediaIdentityKey m =
      normalizeIdentityKey (.text (ref.provider.joinColon ref.externalId)) := by
  rw [mediaIdentityKey, if_neg (not_not.mpr h), href]

/-- An identity key matches in its own right: its normal form is the key itself. -/
theorem normalizeIdentityKey_mediaIdentityKey_of_identity {m : MediaInfo}
    (h : (orEmpty m.identityId).strip ≠ []) :
    normalizeIdentityKey (.text (mediaIdentityKey m)) =
      Text.of "id:" ++ (orEmpty m.identityId).strip := by
  rw [mediaIdentityKey_of_identity h, normalizeIdentityKey_id (Text.trimmed_strip _) h]

/-- Blank ends do not change a key's normal form. -/
@[simp] theorem normalizeIdentityKey_strip (t : Text) :
    normalizeIdentityKey (.text t.strip) = normalizeIdentityKey (.text t) := by
  simp [normalizeIdentityKey, IdValue.toText]

/-- The normal form of a key that has a colon is not blank. -/
theorem normalizeIdentityKey_ne_nil {t : Text} (h : ':' ∈ t) :
    normalizeIdentityKey (.text t) ≠ [] := by
  rw [normalizeIdentityKey, IdValue.toText, Ne, normalizeStripped_eq_nil]
  exact List.ne_nil_of_mem (Text.colon_mem_strip h)

/-- An item without a key has a blank TMDB id. -/
theorem normalizeIdentityKey_tmdbId_of_scopeKey_eq_nil {m : MediaInfo}
    (h : mediaSeriesScopeKey m = []) : normalizeIdentityKey m.tmdbId = [] := by
  have hseries : (orEmpty m.seriesKey).strip = [] := by
    by_contra hne
    simp only [mediaSeriesScopeKey, if_neg hne] at h
    cases hn : m.seasonSeq with
    | none => exact hne (by simpa [hn] using h)
    | some n => exact List.ne_nil_of_mem (Text.colon_mem_joinColon _ _) (by simpa [hn] using h)
  simp only [mediaSeriesScopeKey, if_pos hseries, mediaIdentityKey] at h
  split_ifs at h with hid
  · simp [Text.of] at h
  · cases href : m.getMediaRef with
    | some ref =>
      rw [href] at h
      exact absurd h (normalizeIdentityKey_ne_nil (Text.colon_mem_joinColon _ _))
    | none => simpa [href] using h

end WolfNas
