import WolfNas.Media.EpisodeText
import WolfNas.Lib.Path
import WolfNas.Transfer.NameFormat

/-!
# The fields of a name format

`get_format_dict` collects what a name format may name.  A few of the values are cleaned for a
file name; the others come as the parser, the provider or a plugin gave them.

## Main definitions

* `NamingItem`, `Snapshot` — the data the fields are read from.
* `NamingProfile`, `NamingEnv` — what plugins register, and the services.
* `clearFileName`, `safeCategoryName` — the cleaning, and what a category's directory may be named.
* `NamingEnv.getFormatDict` — the fields, and `cleanedKeys` — those that are cleaned.

## Main results

* `NamingEnv.cleaned_unslashed` — a cleaned field has no slash.
-/

namespace WolfNas

open Text

/-- An identified item with the fields that only the name formats read. -/
structure NamingItem extends MediaInfo where
  originalTitle : Option Text := none
  resourceType : Option Text := none
  resourceTeam : Option Text := none
  customization : Option Text := none
  videoEncode : Option Text := none
  audioEncode : Option Text := none
  imdbId : Option Text := none
  releaseDate : Option Text := none
  /-- The dates of the provider's details. -/
  infoReleaseDate : Option Text := none
  infoFirstAirDate : Option Text := none
  /-- Extra content, such as a special. -/
  isExtras : Bool := false
  deriving DecidableEq, Repr

/-- The metadata snapshot of a work. -/
structure Snapshot where
  fields : List (Text × Text)
  refs : List MediaRef
  /-- The ratings, as they are written; a rating of zero is left out. -/
  ratings : List (Text × Text)
  primaryProvider : Option Text
  contentProfile : Text
  deriving DecidableEq, Repr

/-- `NamingField`: a field of a plugin; its resolver may raise, or give nothing. -/
structure NamingField where
  key : Text
  applies : Text
  resolver : Option (NamingItem → Option Snapshot → Option FormatValue)

/-- `NamingProfile`. -/
structure NamingProfile where
  contentProfile : Text
  fields : List NamingField
  movieTemplate : Option Text
  defaultMovie : Text

/-- What the plugins have registered, and the media service. -/
structure NamingEnv where
  profiles : List NamingProfile
  getEpisodeTitle : NamingItem → Option Text
  getTmdbEnTitle : NamingItem → Option Text
  /-- See `Format.Env.special`. -/
  special : FormatValue → Option Char → Text → Except FormatError Text

/-- `StringUtils.clear_file_name`. -/
def clearFileName (name : Text) : Text :=
  (name.filter (· ∉ ['*', '?', '\\', '/', '"', '<', '>', '~', '|'])).map
    fun c => if c = ':' then '：' else c

/-- `safe_category_name`. -/
def safeCategoryName (value : Option Text) : Text :=
  let category := (orEmpty value).strip
  if category = [] ∨ category = of "." ∨ category = of ".." then []
  else if '/' ∈ category ∨ '\\' ∈ category ∨ ':' ∈ category then []
  else category

theorem clearFileName_unslashed (name : Text) : '/' ∉ clearFileName name := by
  intro h
  obtain ⟨c, hc, heq⟩ := List.mem_map.mp h
  split at heq
  · exact absurd heq (by decide)
  · subst heq
    simp at hc

/-! ## What a snapshot holds -/

/-- The value of a key of a dictionary. -/
def dictGet (d : List (Text × Text)) (key : Text) : Option Text :=
  (d.find? fun e => e.1 = key).map Prod.snd

/-- `_snapshot_value`. -/
def snapshotValue (snapshot : Option Snapshot) (name : Text) (fallback : Option Text) :
    Option Text :=
  match snapshot.bind fun s => dictGet s.fields name with
  | some v => if v = [] then fallback else some v
  | none => fallback

/-- `_snapshot_ref`. -/
def snapshotRef (snapshot : Option Snapshot) (provider : Text) : Option Text :=
  snapshot.bind fun s => (s.refs.find? fun ref => ref.provider = provider).map (·.externalId)

/-- `_snapshot_provider`. -/
def snapshotProvider (s : Snapshot) : Option Text × Option Text :=
  let provider := if orEmpty s.primaryProvider = [] then (s.refs.head?.map (·.provider)).getD []
    else orEmpty s.primaryProvider
  if provider = [] then (none, none) else (some provider, snapshotRef (some s) provider)

/-- `_snapshot_rating`. -/
def snapshotRating (snapshot : Option Snapshot) (provider : Text) : Option Text :=
  snapshot.bind fun s => dictGet s.ratings provider

/-- `_media_provider`. -/
def mediaProvider (m : MediaInfo) : Option Text × Option Text :=
  if orEmpty m.anchorProvider ≠ [] ∧ orEmpty m.anchorExternalId ≠ [] then
    (some (orEmpty m.anchorProvider), some (orEmpty m.anchorExternalId))
  else if m.tmdbId.toText.isDigit then (some (of "tmdb"), some m.tmdbId.toText)
  else (none, none)

/-! ## The dictionary -/

/-- A value; nothing where it is false. -/
def formatText (s : Option Text) : Option FormatValue :=
  if orEmpty s = [] then none else some (.text (orEmpty s))

/-- An id; ids are not negative. -/
def formatId : IdValue → Option FormatValue
  | .none => none
  | .int n => if n.toNat = 0 then none else some (.int n.toNat)
  | .text s => formatText (some s)

namespace NamingItem

variable (m : NamingItem) (snapshot : Option Snapshot)

/-- `get_edtion_string`. -/
def getEdtionString : Text :=
  List.intercalate [' '] ([orEmpty m.resourceType, orEmpty m.resourceEffect].filter (· ≠ []))

/-- `_resolve_year`. -/
def resolveYear : Option Text :=
  let year := snapshotValue snapshot (of "year") m.year
  if (orEmpty year).strip ≠ [] then some (orEmpty year).strip
  else
    let date := [snapshotValue snapshot (of "release_date") m.releaseDate, m.infoReleaseDate,
      m.infoFirstAirDate].map orEmpty |>.find? (· ≠ [])
    match date with
    | some date => if 4 ≤ date.length ∧ Text.isDigit (date.take 4) then some (date.take 4) else year
    | none => year

/-- The provider and its id. -/
def namingProvider : Option Text × Option Text :=
  match snapshot with
  | some s => snapshotProvider s
  | none => mediaProvider m.toMediaInfo

end NamingItem

/-- The keys whose values `clear_file_name` goes over. -/
def cleanedKeys : List Text :=
  ["title", "en_title", "original_name", "rev_name", "original_title", "name",
    "episode_title"].map of

namespace NamingEnv

variable (env : NamingEnv) (m : NamingItem) (snapshot : Option Snapshot)

/-- The fields of the program itself, by their keys. -/
def coreFields : List (Text × Option FormatValue) :=
  let clean := fun s : Option Text => formatText (some (clearFileName (orEmpty s)))
  let stem := fun s : Option Text => some (Path.splitext (orEmpty s)).1
  let provider := m.namingProvider snapshot
  let ref := fun p : Text => formatText (snapshotRef snapshot p)
  [(of "title", clean (snapshotValue snapshot (of "title") m.title)),
    (of "en_title", clean (env.getTmdbEnTitle m)),
    (of "original_name", clean (stem m.orgString)),
    (of "rev_name", clean (stem m.revString)),
    (of "original_title", clean (snapshotValue snapshot (of "original_title") m.originalTitle)),
    (of "name", clean (some m.getName)),
    (of "year", formatText (m.resolveYear snapshot)),
    (of "edition", formatText (some m.getEdtionString)),
    (of "videoFormat", formatText m.resourcePix),
    (of "source", formatText m.resourceType),
    (of "releaseGroup", formatText m.resourceTeam),
    (of "customization", formatText m.customization),
    (of "effect", formatText m.resourceEffect),
    (of "videoCodec", formatText m.videoEncode),
    (of "audioCodec", formatText m.audioEncode),
    (of "tmdbid", (ref (of "tmdb")).or (formatId m.tmdbId)),
    (of "imdbid", (ref (of "imdb")).or (formatText m.imdbId)),
    (of "doubanid", (ref (of "douban")).or (formatId m.doubanId)),
    (of "bgmid", if provider.1 = some (of "bangumi") then formatText provider.2
      else ref (of "bangumi")),
    (of "provider", formatText provider.1),
    (of "provider_id", formatText provider.2),
    (of "content_profile", formatText (some (match snapshot with
      | some s => s.contentProfile
      | none => if m.type = some .anime then of "anime" else of "default"))),
    (of "release_date", formatText (snapshotValue snapshot (of "release_date") m.releaseDate)),
    (of "rating_douban", formatText (snapshotRating snapshot (of "douban"))),
    (of "rating_tmdb", formatText (snapshotRating snapshot (of "tmdb"))),
    (of "media_type", formatText (m.type.map MediaType.value)),
    (of "category", formatText m.category),
    (of "season", formatText (some m.getSeasonSeq)),
    (of "episode", formatText (some m.getEpisodeSeqs)),
    (of "episode_title", clean (env.getEpisodeTitle m)),
    (of "season_episode", formatText (some (m.getSeasonItem ++ m.getEpisodeItems))),
    (of "part", formatText m.part)]

/-- The fields that plugins give, later ones first: `render_naming_fields`. -/
def renderNamingFields : List (Text × FormatValue) :=
  let contentProfile := if m.contentProfile ≠ [] then m.contentProfile
    else if m.type = some .anime then of "anime" else of "default"
  let mediaKind := if m.type = some .tv ∨ m.type = some .anime then of "tv" else of "movie"
  let profiles := env.profiles.filter fun p => p.contentProfile ∈ [contentProfile, of "default"]
  let fields := (profiles.flatMap (·.fields)).filter fun f =>
    f.applies ∈ [of "both", mediaKind, contentProfile]
  (fields.filterMap fun f => do
    let resolver ← f.resolver
    let value ← resolver m snapshot
    if value = .text [] then none else some (f.key, value)).reverse

/-- `naming_field_keys`. -/
def namingFieldKeys : List Text := env.profiles.flatMap fun p => p.fields.map (·.key)

/-- `get_format_dict`: an empty value is a tab. -/
def getFormatDict (key : Text) : Option FormatValue :=
  let tab := FormatValue.text ['\t']
  match (env.coreFields m snapshot).find? fun e => e.1 = key with
  | some e => some (e.2.getD tab)
  | none => match (env.renderNamingFields m snapshot).find? fun e => e.1 = key with
    | some e => some (if e.2 = .int 0 then tab else e.2)
    | none => if key ∈ env.namingFieldKeys then some tab else none

/-- What the formats may name. -/
def formatEnv : Format.Env := ⟨env.getFormatDict m snapshot, env.special⟩

/-- **A cleaned field has no slash.** -/
theorem cleaned_unslashed {key : Text} (hkey : key ∈ cleanedKeys) {v : FormatValue}
    (hv : env.getFormatDict m snapshot key = some v) : '/' ∉ v.str := by
  have hclean : ∀ name, '/' ∉ ((formatText (some (clearFileName name))).getD (.text ['\t'])).str := by
    intro name
    rw [formatText]
    split
    · simp [FormatValue.str]
    · exact clearFileName_unslashed name
  have hfields : ∀ e ∈ env.coreFields m snapshot, e.1 ∈ cleanedKeys →
      '/' ∉ (e.2.getD (.text ['\t'])).str := by
    intro e he hmem
    simp only [coreFields, List.mem_cons, List.not_mem_nil, or_false] at he
    repeat' rcases he with rfl | he
    all_goals first
      | exact hclean _
      | exact absurd hmem (of_decide_eq_false rfl)
  have hkeys : cleanedKeys ⊆ (env.coreFields m snapshot).map Prod.fst := of_decide_eq_true rfl
  obtain ⟨e, he, hfst⟩ := List.mem_map.mp (hkeys hkey)
  rw [getFormatDict] at hv
  cases hfind : (env.coreFields m snapshot).find? fun f => f.1 = key with
  | none =>
    exact absurd hfst (by simpa using List.find?_eq_none.mp hfind e he)
  | some f =>
    have hf : f.1 = key := by simpa using List.find?_some hfind
    simp only [hfind, Option.some.injEq] at hv
    rw [← hv]
    exact hfields f (List.mem_of_find?_eq_some hfind) (hf ▸ hkey)

end NamingEnv

end WolfNas
