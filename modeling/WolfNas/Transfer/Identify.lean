import WolfNas.Lib.Path
import WolfNas.Media.Ref

/-!
# Which episode a file is

Before a file is moved into the library, `transfer_media` decides which work, season and
episode it is.  There are four ways to it: the anchor of the download record, a parser profile,
the primary metadata source, and identification by name with or without known TMDB data.  What
stays open afterwards is filled with what the caller or the download record says.

## Main definitions

* `ParserResult`, `DownloadRecord`, `IdentifyTask` — what identification reads.
* `IdentifyEnv` — the parsers and metadata services it relies on.
* `IdentifyEnv.fillEpisodeFromParentPaths`, `IdentifyEnv.anchorInfo`, `IdentifyEnv.knownInfo`,
  `IdentifyEnv.batchInfo` — the readings of a file.
* `IdentifyEnv.route`, `IdentifyEnv.identify` — which of them is taken, and what comes of it.
-/

namespace WolfNas

open Text

/-- The part of a parsed name that says which episode it is. -/
structure ParserResult where
  season : Option ℕ := none
  endSeason : Option ℕ := none
  episode : Option ℕ := none
  endEpisode : Option ℕ := none
  type : Option MediaType := none
  deriving DecidableEq, Repr

/-- The part of `MediaInfo.from_parser` that the parser result fills. -/
def MediaInfo.fromParser (parsed : Option ParserResult) : MediaInfo :=
  match parsed with
  | none => {}
  | some r =>
    { beginSeason := r.season, endSeason := r.endSeason, beginEpisode := r.episode,
      endEpisode := r.endEpisode, type := r.type }

/-- What a parser profile recognises in a name. -/
structure ParsedProfile where
  contentProfile : Text
  anchorProvider : Text := []
  /-- `anchor_external_id`, or else `content_id`. -/
  code : Text := []
  type : Option MediaType := none
  deriving DecidableEq, Repr

/-- A row of the download history. -/
structure DownloadRecord where
  tmdbId : Text := []
  anchorProvider : Text := []
  anchorExternalId : Text := []
  contentProfile : Text := []
  identityId : Option Text := none
  title : Text := []
  year : Text := []
  se : Text := []
  deriving DecidableEq, Repr

/-- The arguments of `transfer_media` that identification reads, with the download record that
is found for its path. -/
structure IdentifyTask where
  /-- The caller knows the TMDB data. -/
  providerData : Bool := false
  record : Option DownloadRecord := none
  season : Option ℕ := none
  fallbackEpisode : Option ℕ := none
  deriving DecidableEq, Repr

/-- What the episode mapper answers: a season and an episode, and where they end. -/
structure MappedEpisode where
  season : ℕ
  episode : ℕ
  ends : Option (Option ℕ × Option ℕ) := none
  deriving DecidableEq, Repr

/-- The parsers and metadata services identification relies on. -/
structure IdentifyEnv where
  /-- `meta_info` of a title and a type. -/
  metaInfo : Text → Option MediaType → MediaInfo
  /-- The profile of a file name. -/
  profileOf : Text → Option ParsedProfile
  /-- The primary source is not TMDB, and knows the item. -/
  primaryMatches : MediaInfo → Bool
  /-- The parsed name of a file, with TMDB data at hand. -/
  parse : Text → Option ParserResult
  /-- The parsed name of a file, in a batch. -/
  parseBatch : Text → Option ParserResult
  /-- `RegexParser.parse`, for directories and for the record's season. -/
  regexParse : Text → Option ParserResult
  /-- The file is there, and not inside a blu-ray directory. -/
  present : Text → Bool
  /-- The type and the TMDB number that the metadata gives a file. -/
  provided : Text → MediaInfo → Option MediaType × IdValue
  /-- `episode_format.split_episode`; none without a format. -/
  splitEpisode : Option (Text → Option ℕ × Option ℕ × Option Text)
  /-- The episode mapper; it is asked for a number, a season, an episode and its end. -/
  mapAuto : IdValue → Option ℕ → ℕ → Option ℕ → Option MappedEpisode
  /-- TMDB answers for the record. -/
  tmdbInfo : DownloadRecord → Bool
  /-- The title and the year that the anchor's provider gives; blank where it gives none. -/
  anchorData : DownloadRecord → Text × Text
  /-- The type of the record. -/
  recordType : DownloadRecord → MediaType
  /-- The series key and the title that the series service answers. -/
  resolveSeries : DownloadRecord → Text → Option ℕ → Option (Text × Text)
  /-- The type once the record, the subscription and the metadata had their say. -/
  finalType : Text → MediaInfo → Option MediaType

/-- A number that is given and not zero. -/
def given (n : Option ℕ) : Bool := n.getD 0 ≠ 0

namespace IdentifyEnv

variable (env : IdentifyEnv) (task : IdentifyTask)

/-! ## The download record -/

/-- The download record, which is looked up only where the caller knows no TMDB data. -/
def downloadRecord : Option DownloadRecord := if task.providerData then none else task.record

/-- `_lookup_download_record`: whether the TMDB data is known, and the season and episode of
the record. -/
def lookupDownloadRecord (record : Option DownloadRecord) : Bool × Option ℕ × Option ℕ :=
  match record with
  | none => (false, none, none)
  | some r =>
    let se := if r.se = [] then none else env.regexParse r.se
    let season := se.bind ParserResult.season
    let episode := se.bind ParserResult.episode
    if r.tmdbId ≠ [] then (env.tmdbInfo r, season, episode)
    else if r.anchorProvider ≠ [] ∧ r.anchorExternalId ≠ [] then (false, season, episode)
    else (false, none, none)

/-- The TMDB data is known. -/
def hasData : Bool := task.providerData || (env.lookupDownloadRecord (downloadRecord task)).1

/-- The season of the record. -/
def dlSeason : Option ℕ := (env.lookupDownloadRecord (downloadRecord task)).2.1

/-- The episode of the record. -/
def dlEpisode : Option ℕ := (env.lookupDownloadRecord (downloadRecord task)).2.2

/-- The record has an anchor other than TMDB. -/
def anchored (r : DownloadRecord) : Bool :=
  !r.anchorProvider.strip.isEmpty && !r.anchorExternalId.strip.isEmpty &&
    r.anchorProvider.strip != of "tmdb"

/-- The name of a file without its extension. -/
def stem (path : Text) : Text := (Path.splitext (Path.basename path)).1

/-- The title that stands for a file of an anchored record. -/
def anchorTitle (r : DownloadRecord) (path : Text) : Text :=
  let found := (env.anchorData r).1
  let title := (if found = [] then r.title else found).strip
  if title = [] then stem path else title

/-- `_media_info_from_anchor_record`, for an anchored record. -/
def anchorInfo (r : DownloadRecord) (path : Text) (season episode : Option ℕ) : MediaInfo :=
  let title := env.anchorTitle r path
  let year := (env.anchorData r).2
  let info := env.metaInfo title (some (env.recordType r))
  let resolved := env.resolveSeries r title (if given season then season else none)
  let info := { info with
    title := some (match resolved with
      | some (_, t) => if t = [] then title else t
      | none => title)
    year := some (if year = [] then r.year else year)
    orgString := some (Path.basename path)
    anchorProvider := some r.anchorProvider.strip
    anchorExternalId := some r.anchorExternalId.strip
    contentProfile := if r.contentProfile = [] then of "default" else r.contentProfile
    identityId := r.identityId
    seriesKey := match resolved with
      | some (key, _) => some key
      | none => info.seriesKey }
  if given season then
    if given episode then
      { info with beginSeason := season, beginEpisode := episode, endEpisode := episode }
    else { info with beginSeason := season }
  else info

/-! ## Identification by name -/

/-- The stem of the file is a bare number. -/
def bareIndex (path : Text) : Bool := (stem path).isDigit

/-- The directory names an episode. -/
def directoryEpisode (ctx : Text) : Option ParserResult :=
  if ctx = [] ∨ ctx = of "." ∨ ctx = of "/" ∨ ctx = of "\\" then none
  else (env.regexParse ctx).filter fun r => given r.episode

/-- The nearest of the two directories above the file that names an episode. -/
def parentEpisode (path : Text) : Option ParserResult :=
  let parent := Path.dirname path
  (env.directoryEpisode (Path.basename parent)).orElse fun _ =>
    env.directoryEpisode (Path.basename (Path.dirname parent))

/-- `_fill_episode_from_parent_paths`: the number of a bare file name is overwritten. -/
def fillEpisodeFromParentPaths (path : Text) (parsed : ParserResult) : ParserResult :=
  if parsed.episode ≠ none ∧ !bareIndex path then parsed
  else match env.parentEpisode path with
    | none => parsed
    | some ctx =>
      { parsed with
        season := if parsed.season = none ∨ bareIndex path then ctx.season else parsed.season
        episode := ctx.episode
        endEpisode := if parsed.endEpisode = none then ctx.endEpisode else parsed.endEpisode }

/-- The episode format, applied to the name of the file. -/
def applyFormat (path : Text) (info : MediaInfo) : MediaInfo :=
  match env.splitEpisode with
  | none => info
  | some split =>
    let (begin_, end_, part) := split (Path.basename path)
    let info := if begin_ = none then info else { info with beginEpisode := begin_, part := part }
    if end_ = none then info else { info with endEpisode := end_ }

/-- A file whose TMDB data is known; the caller's season comes before the one of its name. -/
def knownInfo (path : Text) : MediaInfo :=
  let parsed := (env.parse path).map (env.fillEpisodeFromParentPaths path)
  let info := MediaInfo.fromParser parsed
  let (type, tmdbId) := env.provided path info
  let info := { info with type := type, tmdbId := tmdbId }
  let info :=
    if given task.season ∧ type ≠ some .movie then { info with beginSeason := task.season } else info
  env.applyFormat path info

/-- A file that is identified in a batch. -/
def batchInfo (path : Text) : MediaInfo :=
  let parsed := (env.parseBatch path).map (env.fillEpisodeFromParentPaths path)
  let info := MediaInfo.fromParser parsed
  let (type, tmdbId) := env.provided path info
  env.applyFormat path { info with type := type, tmdbId := tmdbId }

/-- The mapper's answer for a file. -/
def mapped (info : MediaInfo) : Option MappedEpisode :=
  match info.beginEpisode with
  | none => none
  | some episode =>
    if info.type ≠ some .movie ∧ info.tmdbId.truthy ∧ episode ≠ 0 then
      env.mapAuto info.tmdbId info.beginSeason episode info.endEpisode
    else none

/-- The season and the episode are mapped to those of TMDB. -/
def applyMapping (info : MediaInfo) : MediaInfo :=
  match env.mapped info with
  | none => info
  | some m =>
    let info := { info with beginSeason := some m.season, beginEpisode := some m.episode }
    match m.ends with
    | none => info
    | some (s, e) => { info with endSeason := s, endEpisode := e }

/-! ## All ways together -/

/-- The way a file is identified. -/
inductive Route
  | anchor (r : DownloadRecord)
  | profile (parsed : ParsedProfile)
  | primary
  | known
  | batch

/-- The way of identification by name. -/
def nameRoute : Route := if env.hasData task then .known else .batch

/-- The way `transfer_media` takes for a file. -/
def route (path : Text) : Route :=
  match (downloadRecord task).filter anchored with
  | some r => .anchor r
  | none =>
    match (env.profileOf (Path.basename path)).filter fun p => !p.contentProfile.isEmpty with
    | some parsed => .profile parsed
    | none =>
      if env.primaryMatches (env.metaInfo (Path.basename path) none) then .primary
      else env.nameRoute task

/-- The text that a profile has parsed again. -/
def profileText (parsed : ParsedProfile) (path : Text) : Text :=
  if parsed.code = [] then stem path else parsed.code

/-- A file with a parser profile. -/
def profileInfo (parsed : ParsedProfile) (path : Text) : MediaInfo :=
  let info := env.metaInfo (profileText parsed path) (some (parsed.type.getD .movie))
  { info with
    orgString := some (Path.basename path)
    contentProfile := parsed.contentProfile
    anchorProvider := some parsed.anchorProvider
    anchorExternalId := some parsed.code
    title := if parsed.code = [] then info.title else some parsed.code }

/-- A file before the mapper; none where it is not identified. -/
def reading (path : Text) : Option MediaInfo :=
  match env.route task path with
  | .anchor r => some (env.anchorInfo r path (env.dlSeason task) (env.dlEpisode task))
  | .profile parsed => some (env.profileInfo parsed path)
  | .primary => some (env.metaInfo (Path.basename path) none)
  | .known => if env.present path then some (env.knownInfo task path) else none
  | .batch => if env.present path then some (env.batchInfo path) else none

/-- The mapper is asked for files that are identified by name. -/
def mappedReading (path : Text) (info : MediaInfo) : MediaInfo :=
  match env.route task path with
  | .known | .batch => env.applyMapping info
  | _ => info

/-- What is still open is filled from the caller or the record. -/
def fillFallback (path : Text) (info : MediaInfo) : MediaInfo :=
  let season := if task.season = none then env.dlSeason task else task.season
  let episode := if task.fallbackEpisode = none then env.dlEpisode task else task.fallbackEpisode
  let info := { info with type := env.finalType path info }
  let info :=
    if info.beginSeason = none ∧ info.type ≠ some .movie then { info with beginSeason := season }
    else info
  if info.beginEpisode = none then { info with beginEpisode := episode } else info

/-- The identified file, as it goes on to be transferred. -/
def identify (path : Text) : Option MediaInfo :=
  (env.reading task path).map fun info => env.fillFallback task path (env.mappedReading task path info)

end IdentifyEnv

end WolfNas
