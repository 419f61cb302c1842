import WolfNas.Lib.Keyed
import WolfNas.Media.EpisodeText
import WolfNas.Media.Ref

/-!
# Identification of search results in batches

The results of a search are grouped under a key of their names, seasons and episodes.  A group is
compared with the work that is searched for, or looked up by its names; what comes out is cached
under the key, and read there by every result of the group.

## Main definitions

* `SearchCandidate`, `SearchTarget` — a result of a search, and what was searched for.
* `ReleaseEnv` — the helpers and the provider.
* `ReleaseEnv.buildCacheKey` — `build_cache_key`.
* `ReleaseGroup`, `ReleaseEnv.groupCandidates` — the groups of a batch.
* `ReleaseEnv.resolve` — what is cached for a group.
* `ReleaseEnv.identify` — a batch, on the cache.
-/

namespace WolfNas

open Text

/-! ## What is identified -/

/-- A result of a search; `title` is that of the torrent. -/
structure SearchCandidate where
  media : MediaInfo
  title : Text
  identityAnchored : Bool := false
  deriving DecidableEq

/-- What was searched for, and all names that the provider has of it. -/
structure SearchTarget where
  media : MediaInfo
  originalTitle : Option Text := none
  providerData : Bool := true
  aliases : List Text := []
  deriving DecidableEq

/-- What is cached of a group: the media info, but for what belongs to a torrent. -/
structure Identified where
  cnName : Option Text
  enName : Option Text
  year : Option Text
  type : Option MediaType
  beginSeason : Option ℕ
  endSeason : Option ℕ
  beginEpisode : Option ℕ
  endEpisode : Option ℕ
  tmdbId : IdValue := .int 0
  title : Option Text := none
  originalTitle : Option Text := none
  providerData : Bool := false
  deriving DecidableEq

/-- A group of results under one key. -/
structure ReleaseGroup where
  key : Text
  names : List Text
  cnName : Option Text
  enName : Option Text
  year : Option Text
  type : Option MediaType
  seasons : List ℕ
  episodes : List ℕ
  title : Text
  targetTmdbId : Text
  deriving DecidableEq

/-- A query of the provider by one name. -/
structure NameQuery where
  name : Text
  chinese : Bool
  year : Option Text
  season : Option ℕ
  episode : Option ℕ
  type : Option MediaType
  orgString : Text
  deriving DecidableEq

/-- What the provider finds; `animated` is genre 16. -/
structure LookupResult where
  tmdbId : IdValue
  title : Option Text := none
  originalTitle : Option Text := none
  mediaType : Option MediaType := none
  year : Option Text := none
  animated : Bool := false
  deriving DecidableEq

/-- What identification calls besides its own code. -/
structure ReleaseEnv where
  /-- `StringUtils.handler_special_chars`. -/
  specialChars : Text → Text
  /-- `StringUtils.md5_hash`. -/
  md5 : Text → Text
  /-- `_clean_name`. -/
  cleanName : Text → Text
  /-- `is_valid_media_title`. -/
  validTitle : Text → Bool
  /-- The provider's answer to a query; none where it raises. -/
  lookup : NameQuery → Option (Option LookupResult)

/-- `StringUtils.is_chinese`. -/
def isChinese (s : Text) : Bool := s.any fun c => 0x4e00 ≤ c.toNat && c.toNat ≤ 0x9fff

/-- `_is_latin_name`. -/
def isLatinName (s : Text) : Bool := s.any Char.isAlpha

/-- The first and the last of a list; none for the last where there is but one. -/
def firstAndLast (l : List ℕ) : Option ℕ × Option ℕ :=
  (l.head?, if 1 < l.length then l.getLast? else none)

namespace ReleaseEnv

variable (env : ReleaseEnv)

/-! ## Groups -/

/-- `build_cache_key`. -/
def buildCacheKey (m : MediaInfo) (fallbackTitle : Text) : Option Text :=
  let name := if m.getName ≠ [] then m.getName else fallbackTitle
  if name = [] then none
  else
    let numbers := fun l : List ℕ => List.intercalate ['-'] (l.map ofNat)
    let seasons := if m.getSeasonList = [] then [] else of "_S" ++ numbers m.getSeasonList
    let episodes := if m.getEpisodeList = [] then [] else of "_E" ++ numbers m.getEpisodeList
    let en := orEmpty m.enName
    let hash := if en = [] then []
      else '_' :: (env.md5 ((upper (env.specialChars en)).filter (· ≠ ' '))).take 8
    some (of "v2_" ++ (env.specialChars name).strip ++ seasons ++ episodes ++ hash)

/-- The group that a result opens. -/
def newGroup (target : Option SearchTarget) (key : Text) (c : SearchCandidate) : ReleaseGroup where
  key := key
  names := []
  cnName := c.media.cnName
  enName := c.media.enName
  year := c.media.year
  type := c.media.type
  seasons := c.media.getSeasonList
  episodes := c.media.getEpisodeList
  title := if c.title ≠ [] then c.title else key
  targetTmdbId := target.elim [] fun t => t.media.tmdbId.toText

/-- The names of a result that are looked up. -/
def namesOf (c : SearchCandidate) : List Text :=
  [orEmpty c.media.cnName, orEmpty c.media.enName].filterMap fun name =>
    let name' := env.cleanName name
    if name ≠ [] ∧ name' ≠ [] ∧ env.validTitle name' then some name' else none

/-- A name is added once. -/
def addName (names : List Text) (name : Text) : List Text :=
  if name ∈ names then names else names ++ [name]

/-- A result joins a group. -/
def join (g : ReleaseGroup) (c : SearchCandidate) : ReleaseGroup :=
  { g with
    cnName := if orEmpty c.media.cnName ≠ [] ∧ orEmpty g.cnName = [] then c.media.cnName
      else g.cnName
    enName := if orEmpty c.media.enName ≠ [] ∧ orEmpty g.enName = [] then c.media.enName
      else g.enName
    names := (env.namesOf c).foldl addName g.names }

/-- A result opens the group of its key, or joins it. -/
def place (target : Option SearchTarget) (kc : Text × SearchCandidate) (g : Option ReleaseGroup) :
    Option ReleaseGroup :=
  some (env.join (g.getD (newGroup target kc.1 kc.2)) kc.2)

/-- The results of a batch that are still to be identified, with their keys. -/
def unknown (cached : Text → Bool) (candidates : List SearchCandidate) : List (Text × SearchCandidate) :=
  candidates.filterMap fun c =>
    if c.identityAnchored then none
    else (env.buildCacheKey c.media c.title).bind fun key =>
      if cached key then none else some (key, c)

/-- The groups of a batch, by key. -/
def groupCandidates (target : Option SearchTarget) (results : List (Text × SearchCandidate)) :
    Text → Option ReleaseGroup :=
  results.foldl (Keyed.apply Prod.fst (env.place target)) fun _ => none

/-- Chinese names come first. -/
def sortNames (g : ReleaseGroup) : ReleaseGroup :=
  { g with names := g.names.filter isChinese ++ g.names.filter fun n => !isChinese n }

/-! ## The work that is searched for -/

/-- `_strict_match`. -/
def strictMatch (name : Text) (targetNames : List Text) : Bool :=
  let normal := fun s => (upper (env.specialChars s)).strip
  normal name ≠ [] ∧ targetNames.any fun t => t ≠ [] ∧ normal name = normal t

/-- `base_target_names`. -/
def baseNames (target : SearchTarget) : List Text :=
  [orEmpty target.media.cnName, orEmpty target.media.enName, orEmpty target.media.title,
    orEmpty target.originalTitle].filter (· ≠ [])

/-- `target_names`: the provider's names are added where there are names already. -/
def targetNames (target : SearchTarget) : List Text :=
  if baseNames target = [] then []
  else (target.aliases.filter (· ≠ [])).foldl addName (baseNames target)

/-- `enrichment_ok`: the provider has more names. -/
def enriched (target : SearchTarget) : Bool :=
  (baseNames target).length < (targetNames target).length

/-- `_guards_pass`. -/
def guardsPass (g : ReleaseGroup) (target : SearchTarget) : Bool :=
  let series := fun t : Option MediaType => t = some .tv ∨ t = some .anime
  let typed := g.type = none ∨ target.media.type = none ∨ g.type = target.media.type ∨
    series g.type ∧ series target.media.type
  typed ∧ (orEmpty g.year = [] ∨ orEmpty target.media.year = [] ∨
    orEmpty g.year = orEmpty target.media.year ∨ series target.media.type ∨ series g.type)

/-! ## What is cached -/

/-- `_build_group_media_info`. -/
def groupInfo (g : ReleaseGroup) : Identified where
  cnName := g.cnName
  enName := g.enName
  year := g.year
  type := g.type
  beginSeason := (firstAndLast g.seasons).1
  endSeason := (firstAndLast g.seasons).2
  beginEpisode := (firstAndLast g.episodes).1
  endEpisode := (firstAndLast g.episodes).2

/-- `_build_direct_media_info`. -/
def directInfo (g : ReleaseGroup) (target : SearchTarget) : Identified :=
  { groupInfo g with
    tmdbId := target.media.tmdbId
    year := if orEmpty g.year ≠ [] then g.year else target.media.year
    type := if g.type ≠ none then g.type else target.media.type
    title := target.media.title
    originalTitle := target.originalTitle
    providerData := target.providerData }

/-- What is decided of a group without the provider: it is the work, or it is not; none where the
provider is asked. -/
def resolveLocal (target : Option SearchTarget) (g : ReleaseGroup) : Option Identified :=
  match target with
  | none => none
  | some t =>
    if baseNames t = [] then none
    else if !guardsPass g t then some (groupInfo g)
    else if g.names = [] then none
    else
      let matched := g.names.map fun n => (n, env.strictMatch n (targetNames t))
      if enriched t then
        if matched.all Prod.snd ∨ matched.any (fun m => isLatinName m.1 && m.2) then
          some (directInfo g t)
        else if !matched.any Prod.snd then some (groupInfo g)
        else none
      else if matched.any Prod.snd then some (directInfo g t)
      else some (groupInfo g)

/-- The query of a name of a group. -/
def query (g : ReleaseGroup) (name : Text) : NameQuery where
  name := name
  chinese := isChinese name
  year := g.year
  season := g.seasons.head?
  episode := g.episodes.head?
  type := g.type
  orgString := g.title

/-- The names that the provider finds, in turn, until one is the work that is searched for; none
where it raises. -/
def hits (g : ReleaseGroup) : List Text → Option (List (Text × LookupResult))
  | [] => some []
  | name :: names =>
    match env.lookup (query g name) with
    | none => none
    | some found =>
      match found.filter fun r => r.tmdbId.truthy with
      | none => hits g names
      | some r =>
        if g.targetTmdbId ≠ [] ∧ r.tmdbId.toText = g.targetTmdbId then some [(name, r)]
        else (hits g names).map ((name, r) :: ·)

/-- The hit of the longest name, the first of them. -/
def longest : List (Text × LookupResult) → Option LookupResult
  | [] => none
  | h :: hs => some (hs.foldl (fun best h => if best.1.length < h.1.length then h else best) h).2

/-- The hit that is taken: the first where all agree, else the longest. -/
def chosen (hs : List (Text × LookupResult)) : Option LookupResult :=
  match hs with
  | [] => none
  | h :: rest => if rest.all fun h' => h'.2.tmdbId = h.2.tmdbId then some h.2 else longest hs

/-- The media info of a hit; a series with the genre becomes an anime. -/
def hitInfo (g : ReleaseGroup) (r : LookupResult) : Identified :=
  { groupInfo g with
    tmdbId := r.tmdbId
    title := r.title
    originalTitle := r.originalTitle
    year := if orEmpty r.year ≠ [] then r.year else g.year
    type := if r.mediaType = some .tv ∧ r.animated then some .anime else g.type
    providerData := true }

/-- What is cached of a group that the provider is asked for; none where it raised.  A group found
to be the work is not it where one of its names is none of the work's. -/
def resolveExternal (target : Option SearchTarget) (g : ReleaseGroup) : Option Identified :=
  (env.hits g g.names).map fun hs =>
    match chosen hs with
    | none => groupInfo g
    | some r =>
      let other := target.any fun t =>
        r.tmdbId = t.media.tmdbId && g.names.any fun n => !env.strictMatch n (targetNames t)
      if other then groupInfo g else hitInfo g r

/-- What is cached of a group. -/
def resolve (target : Option SearchTarget) (g : ReleaseGroup) : Option Identified :=
  let g := sortNames g
  (env.resolveLocal target g).or (env.resolveExternal target g)

end ReleaseEnv

/-! ## The cache -/

/-- An entry of the cache, and what it was made for and from. -/
structure IdentEntry where
  info : Identified
  target : Option SearchTarget
  members : List SearchCandidate
  deriving DecidableEq

/-- The cache `media_ident`. -/
abbrev IdentCache := Text → Option IdentEntry

/-- What is left of the cache when some keys expired or were evicted. -/
def IdentCache.without (cache : IdentCache) (gone : Text → Bool) : IdentCache := fun key =>
  if gone key then none else cache key

namespace ReleaseEnv

variable (env : ReleaseEnv)

/-- The results of a batch under a key. -/
def membersOf (key : Text) (results : List (Text × SearchCandidate)) : List SearchCandidate :=
  (results.filter fun kc => kc.1 = key).map Prod.snd

/-- `identify`. -/
def identify (target : Option SearchTarget) (candidates : List SearchCandidate) (cache : IdentCache) :
    IdentCache :=
  let results := env.unknown (fun key => (cache key).isSome) candidates
  let groups := env.groupCandidates target results
  fun key => (cache key).or <| (groups key).bind fun g =>
    (env.resolve target g).map fun info => ⟨info, target, membersOf key results⟩

end ReleaseEnv

end WolfNas
