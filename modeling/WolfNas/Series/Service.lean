import WolfNas.Lib.Table
import WolfNas.Lib.Text

/-!
# The series store and its resolution service

Entries of different sources are joined into series of the store's own.  An entry that was
seen before is found by its alias; any other entry is joined to a series of the same title
where there is one, and what was chosen is recorded as its alias.

## Main definitions

* `MediaSeries`, `MediaSeriesSeason`, `MediaSeriesAlias` — the rows of the store.
* `SeriesStore` — the store; its operations carry the names of the repository's.
* `ResolveCall`, `SeriesResolution` — the arguments and the result of a resolution.
* `SeriesEnv.resolve` — `SeriesService.resolve`.
* `SeriesEnv.run` — a sequence of resolutions, with their results.
* `JoinsNoOther` — when a call joins no series of another entry.
-/

namespace WolfNas

open Text

/-- A series of the store. -/
structure MediaSeries where
  seriesKey : Text
  primaryProvider : Text
  primaryExternalId : Text
  title : Text
  originalTitle : Option Text
  year : Option Text
  totalSeasons : ℤ
  deriving DecidableEq, Repr

/-- A season of a series. -/
structure MediaSeriesSeason where
  seriesKey : Text
  seasonNumber : ℤ
  title : Option Text
  year : Option Text
  totalEpisodes : Option ℕ
  episodeOffset : ℕ
  primaryProvider : Text
  primaryExternalId : Text
  deriving DecidableEq, Repr

/-- The mapping of a source's entry to a series, for one season. -/
structure MediaSeriesAlias where
  provider : Text
  externalId : Text
  scope : Text
  seasonNumber : ℤ
  seriesKey : Text
  confidence : ℕ
  deriving DecidableEq, Repr

/-- The three tables of the store. -/
structure SeriesStore where
  series : List MediaSeries := []
  seasons : List MediaSeriesSeason := []
  aliases : List MediaSeriesAlias := []
  deriving DecidableEq, Repr

/-- The database refuses a row whose primary key is taken. -/
inductive DbError
  | integrityError
  deriving DecidableEq, Repr

namespace SeriesStore

variable (st : SeriesStore)

/-- The first of the aliases with the lowest season. -/
def lowestSeason : List MediaSeriesAlias → Option MediaSeriesAlias
  | [] => none
  | a :: rest => match lowestSeason rest with
    | none => some a
    | some b => if b.seasonNumber < a.seasonNumber then some b else some a

/-- `get_alias`. -/
def getAlias (provider externalId scope : Text) (seasonNumber : Option ℤ) :
    Option MediaSeriesAlias :=
  lowestSeason (st.aliases.filter fun a =>
    a.provider = provider ∧ a.externalId = externalId ∧ a.scope = scope ∧
      ∀ n ∈ seasonNumber, a.seasonNumber = n)

/-- `get_series`. -/
def getSeries (seriesKey : Text) : Option MediaSeries :=
  st.series.find? fun s => s.seriesKey = seriesKey

/-- `find_series_by_title`. -/
def findSeriesByTitle (title : Text) : List MediaSeries :=
  st.series.filter fun s => s.title = title

/-- `create_series`; the key is `series:` with the drawn `uuid`. -/
def createSeries (title : Text) (originalTitle year : Option Text) (provider externalId uuid : Text) :
    Except DbError (SeriesStore × MediaSeries) :=
  let row : MediaSeries :=
    ⟨of "series:" ++ uuid, provider, externalId, title, originalTitle, year, 0⟩
  if st.series.any fun s => s.seriesKey = row.seriesKey then .error .integrityError
  else .ok ({ st with series := st.series ++ [row] }, row)

/-- `value or other`, for texts and numbers that may be missing or empty. -/
def orText (value other : Option Text) : Option Text :=
  if value = none ∨ value = some [] then other else value

@[inherit_doc orText]
def orNat (value other : Option ℕ) : Option ℕ :=
  if value = none ∨ value = some 0 then other else value

/-- `upsert_season`. -/
def upsertSeason (seriesKey : Text) (seasonNumber : ℤ) (title year : Option Text)
    (totalEpisodes : Option ℕ) (provider externalId : Text) : SeriesStore where
  series := st.series.map fun s =>
    if s.seriesKey = seriesKey ∧ s.totalSeasons < seasonNumber then
      { s with totalSeasons := seasonNumber }
    else s
  seasons :=
    if st.seasons.any fun r => r.seriesKey = seriesKey ∧ r.seasonNumber = seasonNumber then
      st.seasons.map fun r =>
        if r.seriesKey = seriesKey ∧ r.seasonNumber = seasonNumber then
          { r with
            title := orText title r.title
            year := orText year r.year
            totalEpisodes := orNat totalEpisodes r.totalEpisodes }
        else r
    else st.seasons ++
      [⟨seriesKey, seasonNumber, title, year, totalEpisodes, 0, provider, externalId⟩]
  aliases := st.aliases

/-- `scope or "default"`. -/
def recordedScope (scope : Text) : Text := if scope = [] then of "default" else scope

/-- The aliases table has no row with this primary key yet. -/
def aliasFree (provider externalId scope : Text) (seasonNumber : ℤ) : Bool :=
  !st.aliases.any fun a =>
    a.provider = provider ∧ a.externalId = externalId ∧ a.scope = scope ∧
      a.seasonNumber = seasonNumber

/-- `create_alias`: an alias that is there already is left as it is. -/
def createAlias (provider externalId scope : Text) (seasonNumber : ℤ) (seriesKey : Text)
    (confidence : ℕ) : SeriesStore :=
  if st.aliasFree provider externalId (recordedScope scope) seasonNumber then
    { st with aliases := st.aliases ++
        [⟨provider, externalId, recordedScope scope, seasonNumber, seriesKey, confidence⟩] }
  else st

end SeriesStore

/-- The arguments of a resolution, with the `uuid` drawn where a series is created. -/
structure ResolveCall where
  provider : Text
  externalId : Text
  title : Text
  year : Option Text := none
  seasonNumber : Option ℤ := none
  scope : Text := of "default"
  totalEpisodes : Option ℕ := none
  originalTitle : Option Text := none
  uuid : Text
  deriving DecidableEq, Repr

/-- The result of a resolution. -/
structure SeriesResolution where
  seriesKey : Text
  seasonNumber : ℤ
  title : Text
  year : Option Text
  created : Bool := false
  deriving DecidableEq, Repr

/-- The parsing of a title. -/
structure SeriesEnv where
  /-- `split_title_season`: the title without its season, and that season. -/
  splitTitleSeason : Text → Text × Option ℤ

/-- `value or other`, for a season number. -/
def orSeason (value : Option ℤ) (other : ℤ) : ℤ :=
  if value.getD 0 = 0 then other else value.getD 0

namespace SeriesEnv

variable (env : SeriesEnv)

/-- The season of a call: the one in its title, else the one it names, else the first. -/
def seasonOf (c : ResolveCall) : ℤ :=
  orSeason (env.splitTitleSeason c.title).2 (orSeason c.seasonNumber 1)

/-- The alias a call is answered from. -/
def findAlias (st : SeriesStore) (c : ResolveCall) : Option MediaSeriesAlias :=
  match st.getAlias c.provider.strip c.externalId.strip c.scope (some (env.seasonOf c)) with
  | some a => some a
  | none =>
    if c.seasonNumber = none ∧ (env.splitTitleSeason c.title).2 = none then
      st.getAlias c.provider.strip c.externalId.strip c.scope none
    else none

/-- The series that is chosen among those of the same title. -/
def chooseSeries (c : ResolveCall) (candidates : List MediaSeries) : Option MediaSeries :=
  match c.year with
  | none | some [] => candidates.head?
  | some year =>
    match candidates.find? fun s => s.year.getD [] = year with
    | some s => some s
    | none => candidates.head?

/-- The series a call would join. -/
def joined (st : SeriesStore) (c : ResolveCall) : Option MediaSeries :=
  chooseSeries c (st.findSeriesByTitle (env.splitTitleSeason c.title).1)

/-- `title.strip() or None`. -/
def seasonTitle (c : ResolveCall) : Option Text :=
  if c.title.strip = [] then none else some c.title.strip

/-- The season and the alias of a call are recorded for the series it is answered with. -/
def record (st : SeriesStore) (c : ResolveCall) (seriesKey : Text) (confidence : ℕ) : SeriesStore :=
  (st.upsertSeason seriesKey (env.seasonOf c) (seasonTitle c) c.year c.totalEpisodes
    c.provider.strip c.externalId.strip).createAlias
      c.provider.strip c.externalId.strip c.scope (env.seasonOf c) seriesKey confidence

/-- `SeriesService.resolve`. -/
def resolve (st : SeriesStore) (c : ResolveCall) :
    Except DbError (SeriesStore × SeriesResolution) :=
  let base := (env.splitTitleSeason c.title).1
  if c.provider.strip = [] ∨ c.externalId.strip = [] then
    .ok (st, ⟨[], orSeason (env.splitTitleSeason c.title).2 1, base, c.year, false⟩)
  else match env.findAlias st c with
    | some a =>
      let series := st.getSeries a.seriesKey
      .ok (st, {
        seriesKey := a.seriesKey
        seasonNumber := orSeason (some a.seasonNumber) 1
        title := (series.map MediaSeries.title).getD c.title
        year := (series.map MediaSeries.year).getD c.year })
    | none => match env.joined st c with
      | some series =>
        .ok (env.record st c series.seriesKey 70,
          ⟨series.seriesKey, env.seasonOf c, series.title, series.year, false⟩)
      | none => do
        let (st, series) ← st.createSeries base c.originalTitle c.year c.provider.strip
          c.externalId.strip c.uuid
        return (env.record st c series.seriesKey 50,
          ⟨series.seriesKey, env.seasonOf c, series.title, series.year, true⟩)

/-- A store with the answers it has given. -/
structure Session where
  store : SeriesStore
  answers : List (ResolveCall × SeriesResolution)

/-- One resolution; a call the database refuses leaves no answer. -/
def serve (s : Session) (c : ResolveCall) : Session :=
  match env.resolve s.store c with
  | .error _ => s
  | .ok (store, r) => ⟨store, s.answers ++ [(c, r)]⟩

/-- A sequence of resolutions. -/
def run (s : Session) (calls : List ResolveCall) : Session := calls.foldl env.serve s

end SeriesEnv

end WolfNas
