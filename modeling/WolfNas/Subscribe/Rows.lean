import WolfNas.Lib.Text
import WolfNas.Media.Ref

/-!
# Subscription rows and the dictionaries built from them

A subscription is a row of the movie or of the TV table.  The matcher and the RSS strategy
never see the row: the query service condenses it into a dictionary, whose reference to the
work is one text chosen among four columns.

The season of a row is written `1`, `01`, `S1` or `S01`, by different parts of the code.  Whoever
compares two seasons compares all the spellings of one with those of the other.

## Main definitions

* `seasonVariants` — the spellings of a season.
* `seasonFilter` — the condition that a query puts on the column of the season.
* `seasonMatches` — two spellings stand for one season.
* `normalizeTvSeason` — the spelling that is stored.
* `SubscribeRow` — the columns the verified code reads, and `DescSettings` — the settings
  an old row keeps in its description instead.
* `SubscribeInfo` — the dictionary of one subscription.
* `normalizedAnchor`, `canonicalRef` — the condensed reference.
* `movieInfo`, `tvInfo` — the dictionaries of the two tables.
* `SubscribeRow.anchorRef` — the reference a row is anchored at.
-/

namespace WolfNas

open Text

/-- The season without the letter in front of it. -/
def seasonDigits (raw : Text) : Text :=
  match raw with
  | 'S' :: digits | 's' :: digits => digits
  | _ => raw

/-- `season_variants`. -/
def seasonVariants (season : Text) : List Text :=
  let raw := season.strip
  let digits := seasonDigits raw
  if raw = [] then []
  else if digits.isDigit then
    [raw, ofNat digits.toNat, pad2 digits.toNat, 'S' :: ofNat digits.toNat,
      'S' :: pad2 digits.toNat]
  else [raw]

/-- `_season_filter`: no condition where no season is given. -/
def seasonFilter (column season : Text) : Bool :=
  seasonVariants season = [] || column ∈ seasonVariants season

/-- `season_matches`. -/
def seasonMatches (left right : Text) : Bool :=
  seasonVariants left = [] || (seasonVariants left).any (· ∈ seasonVariants right)

/-- `_normalize_tv_season`. -/
def normalizeTvSeason (value : Text) : Text :=
  let text := value.strip
  let digits := seasonDigits text
  if digits.isDigit then 'S' :: pad2 digits.toNat else text

/-! ## Rows -/

/-- The filter settings of a subscription. -/
structure FilterArgs where
  restype : Text := []
  pix : Text := []
  team : Text := []
  rule : Text := []
  incl : Text := []
  excl : Text := []
  free : Bool := false
  deriving DecidableEq, Repr

/-- The settings an old row keeps as JSON in its description. -/
structure DescSettings where
  rssSites : List Text
  overEdition : Bool
  filters : FilterArgs
  totalEp : ℕ
  currentEp : ℕ
  deriving DecidableEq, Repr

/-- A row of the movie or the TV subscription table.  The movie table has no season, no
series key and no episode numbers. -/
structure SubscribeRow where
  id : ℕ
  name : Text
  year : Text := []
  season : Text := []
  tmdbId : Option Text := none
  identityId : Option Text := none
  anchorProvider : Option Text := none
  anchorExternalId : Option Text := none
  provider : Option Text := none
  metadataRef : Option Text := none
  seriesKey : Option Text := none
  contentProfile : Text := of "default"
  rssSites : List Text := []
  overEdition : Bool := false
  fuzzyMatch : Bool := false
  filters : FilterArgs := {}
  total : ℕ := 0
  currentEp : ℕ := 0
  desc : Option DescSettings := none
  deriving DecidableEq, Repr

/-- The dictionary of one subscription, as the matcher and the strategies read it. -/
structure SubscribeInfo where
  id : ℕ
  name : Text
  year : Text
  season : Text
  tmdbId : Text
  identityId : Option Text
  seriesKey : Option Text
  anchorProvider : Option Text
  anchorExternalId : Option Text
  provider : Option Text
  metadataRef : Text
  contentProfile : Text
  rssSites : List Text
  overEdition : Bool
  filters : FilterArgs
  total : ℕ
  currentEp : ℕ
  fuzzyMatch : Bool
  type : MediaType
  deriving DecidableEq, Repr

/-- `value or None`, for a text. -/
def orNone (s : Text) : Option Text := if s = [] then none else some s

/-- `_normalized_anchor`. -/
def normalizedAnchor (provider externalId : Option Text) : Option Text × Option Text :=
  let value := (orEmpty provider).strip
  let external := (orEmpty externalId).strip
  if external.startsWith (of "content_id:") then (some (of "content_id"), some external.afterColon)
  else if value = of "content_id" ∧ external = [] then (some value, none)
  else (orNone value, orNone external)

namespace SubscribeRow

/-- The anchor columns of a row, normalised. -/
def anchor (row : SubscribeRow) : Option Text × Option Text :=
  normalizedAnchor row.anchorProvider row.anchorExternalId

/-- The reference a row is anchored at: its anchor columns where both are filled, and its
TMDB number otherwise. -/
def anchorRef (row : SubscribeRow) : Option MediaRef :=
  let provider := orEmpty row.anchor.1
  let external := orEmpty row.anchor.2
  if provider ≠ [] ∧ external ≠ [] then some ⟨provider, external⟩
  else if (orEmpty row.tmdbId).strip.isDigit then some ⟨of "tmdb", (orEmpty row.tmdbId).strip⟩
  else none

end SubscribeRow

/-- `_canonical_ref`. -/
def canonicalRef (row : SubscribeRow) : Text :=
  if (orEmpty row.metadataRef).strip ≠ [] then (orEmpty row.metadataRef).strip
  else if (orEmpty row.identityId).strip ≠ [] then of "id:" ++ (orEmpty row.identityId).strip
  else
    let provider := orEmpty row.anchor.1
    let external := orEmpty row.anchor.2
    if provider ≠ [] ∧ external ≠ [] then provider.joinColon external
    else if (orEmpty row.tmdbId).strip.isDigit then of "tmdb:" ++ (orEmpty row.tmdbId).strip
    else []

/-- What the query service reads besides the row: the sites that still exist, and how a
row's displayed type is resolved. -/
structure QueryEnv where
  siteValid : Text → Bool
  resolvedType : SubscribeRow → MediaType

namespace QueryEnv

variable (env : QueryEnv)

/-- The dictionary entries that both tables fill in the same way. -/
def baseInfo (row : SubscribeRow) : SubscribeInfo where
  id := row.id
  name := row.name
  year := row.year
  season := []
  tmdbId := if (canonicalRef row).startsWith (of "tmdb:") then orEmpty row.tmdbId else []
  identityId := row.identityId
  seriesKey := none
  anchorProvider := row.anchor.1
  anchorExternalId := row.anchor.2
  provider := row.provider
  metadataRef := canonicalRef row
  contentProfile := row.contentProfile
  rssSites := ((row.desc.map DescSettings.rssSites).getD row.rssSites).filter env.siteValid
  overEdition := (row.desc.map DescSettings.overEdition).getD row.overEdition
  filters := row.filters
  total := 0
  currentEp := 0
  fuzzyMatch := if row.desc.isSome then (orEmpty row.tmdbId).isEmpty else row.fuzzyMatch
  type := .movie

/-- One entry of `get_subscribe_movies`.  The description of an old movie row carries no
include and exclude words. -/
def movieInfo (row : SubscribeRow) : SubscribeInfo :=
  { env.baseInfo row with
    filters := match row.desc with
      | none => row.filters
      | some d => { d.filters with
          incl := row.filters.incl, excl := row.filters.excl, free := row.filters.free } }

/-- One entry of `get_subscribe_tvs`. -/
def tvInfo (row : SubscribeRow) : SubscribeInfo :=
  { env.baseInfo row with
    season := row.season
    seriesKey := row.seriesKey
    contentProfile :=
      if env.resolvedType row = .anime then of "anime"
      else if row.contentProfile = [] then of "default" else row.contentProfile
    filters := match row.desc with
      | none => row.filters
      | some d => { d.filters with free := row.filters.free }
    total := row.total
    currentEp := (row.desc.map DescSettings.currentEp).getD row.currentEp
    type := env.resolvedType row }

end QueryEnv

/-! ## The condensed reference -/

/-- A row that is anchored, but carries neither an explicit reference nor an identity, is
condensed to its anchor. -/
theorem canonicalRef_of_anchorRef {row : SubscribeRow} {ref : MediaRef}
    (href : row.anchorRef = some ref) :
    canonicalRef row =
      if (orEmpty row.metadataRef).strip ≠ [] then (orEmpty row.metadataRef).strip
      else if (orEmpty row.identityId).strip ≠ [] then of "id:" ++ (orEmpty row.identityId).strip
      else ref.provider.joinColon ref.externalId := by
  rw [canonicalRef]
  simp only [SubscribeRow.anchorRef] at href
  by_cases hanchor : orEmpty row.anchor.1 ≠ [] ∧ orEmpty row.anchor.2 ≠ []
  · rw [if_pos hanchor] at href
    obtain rfl := Option.some.inj href
    rw [if_pos hanchor]
  · rw [if_neg hanchor] at href
    by_cases htmdb : (orEmpty row.tmdbId).strip.isDigit = true
    · rw [if_pos htmdb] at href
      obtain rfl := Option.some.inj href
      rw [if_neg hanchor, if_pos htmdb]
      rfl
    · rw [if_neg htmdb] at href
      exact absurd href (by simp)

/-- An anchored row is never condensed to a blank text. -/
theorem canonicalRef_strip_ne_nil {row : SubscribeRow} {ref : MediaRef}
    (href : row.anchorRef = some ref) : (canonicalRef row).strip ≠ [] := by
  rw [canonicalRef_of_anchorRef href]
  split_ifs with h₁ h₂
  · rwa [strip_strip]
  · exact List.ne_nil_of_mem (colon_mem_strip (by simp [of]))
  · exact List.ne_nil_of_mem (colon_mem_strip (colon_mem_joinColon _ _))

end WolfNas
