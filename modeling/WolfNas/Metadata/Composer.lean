import Mathlib.Data.Rat.Defs
import Mathlib.Algebra.Order.Ring.Rat
import WolfNas.Lib.Dict
import WolfNas.Lib.Firsts
import WolfNas.Lib.StableSort
import WolfNas.Media.Ref

/-!
# The metadata composer

The records that the metadata providers return are brought into the order of a policy and merged,
field by field, into a snapshot with a hash.

## Main definitions

* `ProviderRecord` — the record of a provider.
* `MetadataPolicy` — in which order the providers are asked for a field, and how it is merged.
* `orderedRecords` — `_ordered_records`.
* `ComposeEnv.composeSnapshot` — `MetadataComposer.compose`.
* `ComposeEnv.compose` — `MetadataOrchestrator.compose`, on what `fetch` collects.
-/

namespace WolfNas

open Text Firsts

/-! ## Records -/

/-- `SourceTier`. -/
inductive SourceTier
  | api
  | html
  | scraping
  deriving DecidableEq

/-- The capabilities of a provider that the composer asks for. -/
inductive ProviderCapability
  | detail
  | seasons
  | episodes
  | credits
  | images
  deriving DecidableEq

/-- `ProviderRef`. -/
structure ProviderRef where
  provider : Text
  externalId : Text
  mediaType : Option MediaType := none
  scope : Text := of "default"
  url : Option Text := none
  confidence : ℚ := 1
  deriving DecidableEq

/-- `ImageAsset`. -/
structure ImageAsset where
  type : Text
  url : Text
  width : Option ℤ := none
  height : Option ℤ := none
  locale : Option Text := none
  provider : Option Text := none
  deriving DecidableEq

/-- `Credit`. -/
structure Credit where
  name : Text
  aliases : List Text := []
  role : Text := of "actor"
  character : Option Text := none
  order : ℤ := 0
  provider : Option Text := none
  externalId : Option Text := none
  personId : Option Text := none
  imageUrl : Option Text := none
  deriving DecidableEq

/-- `SeasonRecord`. -/
structure SeasonRecord where
  seasonNumber : ℤ
  title : Option Text := none
  overview : Option Text := none
  airDate : Option Text := none
  episodeCount : Option ℤ := none
  poster : Option Text := none
  deriving DecidableEq

/-- `EpisodeRecord`. -/
structure EpisodeRecord where
  seasonNumber : ℤ
  episodeNumber : ℤ
  title : Option Text := none
  overview : Option Text := none
  airDate : Option Text := none
  runtime : Option ℤ := none
  still : Option Text := none
  voteAverage : Option ℚ := none
  deriving DecidableEq

/-- A value of `extra`: a number, or any other value by its JSON text. -/
inductive ExtraValue
  | number (q : ℚ)
  | json (s : Text)
  deriving DecidableEq

/-- The value of a scalar field. -/
inductive ScalarValue
  | text (s : Text)
  | number (n : ℤ)
  deriving DecidableEq

/-- `ProviderRecord`; a missing tier has been filled in from the provider. -/
structure ProviderRecord where
  sourceTier : Option SourceTier := none
  provider : Text
  externalId : Text
  refs : List ProviderRef := []
  mediaType : MediaType := .unknown
  locale : Option Text := none
  title : Option Text := none
  originalTitle : Option Text := none
  aliases : List Text := []
  year : Option Text := none
  releaseDate : Option Text := none
  runtime : Option ℤ := none
  overview : Option Text := none
  tagline : Option Text := none
  originalLanguage : Option Text := none
  countries : List Text := []
  spokenLanguages : List Text := []
  genres : List Text := []
  tags : List Text := []
  studios : List Text := []
  labels : List Text := []
  series : List Text := []
  ratings : List (Text × ℚ) := []
  images : List (Text × List ImageAsset) := []
  credits : List Credit := []
  seasons : List SeasonRecord := []
  episodes : List EpisodeRecord := []
  extra : List (Text × ExtraValue) := []
  fetchedAt : ℕ := 0
  deriving DecidableEq

/-- The key that a record is taken once for. -/
def ProviderRecord.key (r : ProviderRecord) : Text × Text := (r.provider, r.externalId)

/-! ## The policy -/

/-- `MergeMode`. -/
inductive MergeMode
  | first
  | union
  | unionByName
  | primaryOnly
  | namespaced
  deriving DecidableEq

/-- `FieldRule`. -/
structure FieldRule where
  order : List Text := []
  locale : Option Text := none
  merge : MergeMode := .first
  deriving DecidableEq

/-- `MetadataPolicy`. -/
structure MetadataPolicy where
  primary : Text
  fallbacks : List Text := []
  fieldRules : List (Text × FieldRule) := []
  allowPartial : Bool := true
  deriving DecidableEq

namespace MetadataPolicy

variable (policy : MetadataPolicy)

/-- `provider_order`. -/
def providerOrder : List Text := policy.primary :: policy.fallbacks

/-- `order_for`. -/
def orderFor (fieldName : Text) : List Text :=
  match policy.fieldRules.lookup fieldName with
  | some rule => if rule.order ≠ [] then rule.order else policy.providerOrder
  | none => policy.providerOrder

/-- `merge_for`. -/
def mergeFor (fieldName : Text) : MergeMode :=
  (policy.fieldRules.lookup fieldName).elim .first FieldRule.merge

/-- `locale_for`. -/
def localeFor (fieldName : Text) : Option Text :=
  (policy.fieldRules.lookup fieldName).bind FieldRule.locale

end MetadataPolicy

/-- The last place of a provider in an order. -/
def position (order : List Text) (provider : Text) : Option ℕ :=
  if provider ∈ order then some (order.length - 1 - order.reverse.idxOf provider) else none

/-- The place of a provider's records: that of the provider, or the last where it has none. -/
def MetadataPolicy.rank (policy : MetadataPolicy) (provider : Text) : ℕ :=
  (position policy.providerOrder provider).getD policy.providerOrder.length

/-- `_ordered_records`. -/
def orderedRecords (policy : MetadataPolicy) (records : List ProviderRecord) : List ProviderRecord :=
  firsts ProviderRecord.key []
    (records.insertionSort fun a b => policy.rank a.provider ≤ policy.rank b.provider)

/-! ## Candidates -/

/-- The declared capabilities, by provider; none where nothing is declared. -/
abbrev CapabilityMap := Text → Option (List ProviderCapability)

/-- `_supports`. -/
def supports (capabilities : CapabilityMap) (provider : Text) (capability : ProviderCapability) :
    Bool :=
  (capabilities provider).all fun caps => capability ∈ caps

/-- `_tier_rank`. -/
def tierRank : Option SourceTier → ℕ
  | some .api => 0
  | some .html => 1
  | some .scraping => 2
  | none => 9

/-- `_candidates`. -/
def candidates (capabilities : CapabilityMap) (records : List ProviderRecord) (order : List Text)
    (capability : ProviderCapability) : List ProviderRecord :=
  let place := fun r : ProviderRecord =>
    ((position order r.provider).getD 0, tierRank r.sourceTier)
  (records.filter fun r =>
      (position order r.provider).isSome && supports capabilities r.provider capability).insertionSort
    fun a b => (place a).1 < (place b).1 ∨ (place a).1 = (place b).1 ∧ (place a).2 ≤ (place b).2

/-! ## Scalars -/

/-- A text that is not empty. -/
def textValue (s : Option Text) : Option ScalarValue :=
  s.bind fun s => if s = [] then none else some (.text s)

/-- `_SCALAR_FIELDS`, each with its value; none where it is empty. -/
def scalarFields : List (Text × (ProviderRecord → Option ScalarValue)) :=
  [(of "title", fun r => textValue r.title),
    (of "original_title", fun r => textValue r.originalTitle),
    (of "year", fun r => textValue r.year),
    (of "release_date", fun r => textValue r.releaseDate),
    (of "runtime", fun r => r.runtime.map .number),
    (of "overview", fun r => textValue r.overview),
    (of "tagline", fun r => textValue r.tagline),
    (of "original_language", fun r => textValue r.originalLanguage)]

/-- `FieldValue`. -/
structure FieldValue where
  value : ScalarValue
  provider : Text
  externalId : Text
  confidence : ℚ := 1
  locale : Option Text := none
  fetchedAt : ℕ
  locked : Bool := false
  deriving DecidableEq

/-- `_locale_matches`. -/
def localeMatches (recordLocale : Option Text) (wanted : Text) : Bool :=
  let normal := fun s : Text => s.lower.map fun c => if c = '_' then '-' else c
  let language := fun s : Text => (normal s).takeWhile (· ≠ '-')
  orEmpty recordLocale ≠ [] &&
    (normal (orEmpty recordLocale) = normal wanted ||
      language (orEmpty recordLocale) = language wanted)

/-- `_ref_confidence`. -/
def refConfidence (r : ProviderRecord) : ℚ :=
  (r.refs.find? fun ref => ref.provider = r.provider ∧ ref.externalId = r.externalId).elim 1
    ProviderRef.confidence

/-- `_pick_scalar`: the providers in turn, and of each the records in the wanted language, or
without one, or all. -/
def pickScalar (capabilities : CapabilityMap) (policy : MetadataPolicy)
    (records : List ProviderRecord) (fieldName : Text) (attr : ProviderRecord → Option ScalarValue) :
    Option FieldValue :=
  let order := policy.orderFor fieldName
  let found := candidates capabilities records order .detail
  let wanted := orEmpty (policy.localeFor fieldName)
  order.findSome? fun provider =>
    let group := found.filter fun r => r.provider = provider
    let inLocale := group.filter fun r => wanted ≠ [] && localeMatches r.locale wanted
    let neutral := group.filter fun r => r.locale = none
    let preferred := if inLocale ≠ [] then inLocale else if neutral ≠ [] then neutral else group
    preferred.findSome? fun r => (attr r).map fun value =>
      { value := value
        provider := r.provider
        externalId := r.externalId
        confidence := refConfidence r
        locale := r.locale
        fetchedAt := r.fetchedAt }

/-! ## Merging -/

/-- The first of some lists that is not empty. -/
def firstFilled {α : Type} (records : List ProviderRecord) (f : ProviderRecord → List α) : List α :=
  ((records.map f).find? fun l => !l.isEmpty).getD []

/-- `_merge_array`. -/
def mergeArray (capabilities : CapabilityMap) (policy : MetadataPolicy) (records : List ProviderRecord)
    (fieldName : Text) (f : ProviderRecord → List Text) : List Text :=
  let found := candidates capabilities records (policy.orderFor fieldName) .detail
  if policy.mergeFor fieldName = .primaryOnly then firstFilled found f
  else
    let key := fun value : Text => value.strip.lower
    firsts key [] ((found.flatMap f).filter fun value => key value ≠ [])

/-- `_merge_ratings`. -/
def mergeRatings (capabilities : CapabilityMap) (policy : MetadataPolicy)
    (records : List ProviderRecord) : List (Text × ℚ) :=
  firsts Prod.fst [] <|
    (candidates capabilities records (policy.orderFor (of "ratings")) .detail).flatMap fun r =>
      if r.ratings ≠ [] then r.ratings
      else
        match r.extra.lookup (of "rating") with
        | some (.number q) => [(r.provider, q)]
        | _ => []

/-- `_merge_images`. -/
def mergeImages (capabilities : CapabilityMap) (policy : MetadataPolicy)
    (records : List ProviderRecord) : List (Text × List ImageAsset) :=
  [of "poster", of "backdrop", of "logo", of "thumb", of "fanart"].filterMap fun imageType =>
    let found := candidates capabilities records (policy.orderFor imageType) .images
    let assets := found.flatMap fun r => ((r.images.lookup imageType).getD []).map fun asset =>
      if orEmpty asset.provider ≠ [] then asset else { asset with provider := some r.provider }
    if assets = [] then none else some (imageType, assets)

/-- `_credit_with_provider`. -/
def creditWithProvider (provider : Text) (credit : Credit) : Credit :=
  if orEmpty credit.provider ≠ [] then credit else { credit with provider := some provider }

/-- `_merge_credits`. -/
def mergeCredits (capabilities : CapabilityMap) (policy : MetadataPolicy)
    (records : List ProviderRecord) : List Credit :=
  let found := candidates capabilities records (policy.orderFor (of "credits")) .credits
  let named := fun r : ProviderRecord => r.credits.map (creditWithProvider r.provider)
  if policy.mergeFor (of "credits") = .primaryOnly then firstFilled found named
  else
    firsts (fun credit => (credit.name.strip.lower, credit.role)) []
      ((found.flatMap named).filter fun credit => credit.name.strip.lower ≠ [])

/-- `_pick_collection`. -/
def pickCollection {α : Type} (capabilities : CapabilityMap) (policy : MetadataPolicy)
    (records : List ProviderRecord) (capability : ProviderCapability) (f : ProviderRecord → List α) :
    List α :=
  firstFilled (candidates capabilities records policy.providerOrder capability) f

/-- The reference to a record itself. -/
def ownRef (r : ProviderRecord) : ProviderRef where
  provider := r.provider
  externalId := r.externalId
  mediaType := r.mediaType
  confidence := refConfidence r

/-- The references of a record, its own among them. -/
def refsOf (r : ProviderRecord) : List ProviderRef :=
  if r.refs.any fun ref => ref.provider = r.provider ∧ ref.externalId = r.externalId then r.refs
  else r.refs ++ [ownRef r]

/-- `_merge_refs`. -/
def mergeRefs (records : List ProviderRecord) : List ProviderRef :=
  firsts (fun ref => (ref.provider, ref.externalId, ref.scope)) [] (records.flatMap refsOf)

/-- `_merge_extra`. -/
def mergeExtra (records : List ProviderRecord) : List (Text × ExtraValue) :=
  firsts Prod.fst [] <| records.flatMap fun r => r.extra.map fun item =>
    (if '.' ∈ item.1 then item.1 else r.provider ++ '.' :: item.1, item.2)

/-- A field that the providers disagree on: `extra["conflicts"]`. -/
structure FieldConflict where
  fieldName : Text
  values : List (Text × ScalarValue)
  deriving DecidableEq

/-- `MediaMetadata`, a composed snapshot. -/
structure ComposedMetadata where
  identityId : Text
  mediaType : MediaType
  contentProfile : Text
  scope : Text
  primaryProvider : Text
  refs : List ProviderRef
  fields : List (Text × FieldValue)
  ratings : List (Text × ℚ)
  aliases : List Text
  genres : List Text
  tags : List Text
  countries : List Text
  spokenLanguages : List Text
  studios : List Text
  labels : List Text
  series : List Text
  credits : List Credit
  seasons : List SeasonRecord
  episodes : List EpisodeRecord
  images : List (Text × List ImageAsset)
  extra : List (Text × ExtraValue)
  conflicts : List FieldConflict
  fetchedAt : ℕ
  snapshotHash : Text := []
  deriving DecidableEq

/-- What the composer calls besides its own code, and what a call of it is given besides the
records and the policy. -/
structure ComposeEnv where
  /-- A title without blanks and signs, in lower case. -/
  titleNormal : ScalarValue → Text
  /-- The SHA-256 of a snapshot's JSON text. -/
  digest : ComposedMetadata → Text
  capabilities : CapabilityMap
  identityId : Text
  contentProfile : Text
  scope : Text
  mediaType : Option MediaType
  locked : List (Text × FieldValue)

namespace ComposeEnv

variable (env : ComposeEnv)

/-- `_titles_compatible`; each title is compared with itself, too. -/
def titlesCompatible (values : List ScalarValue) : Bool :=
  let titles := values.map env.titleNormal
  titles.any fun left => titles.any fun right => left <:+: right ∨ right <:+: left

/-- `_detect_conflicts`. -/
def detectConflicts (records : List ProviderRecord) : List FieldConflict :=
  let conflictFields := [of "title", of "year", of "release_date", of "runtime"]
  (scalarFields.filter fun f => f.1 ∈ conflictFields).filterMap fun f =>
    let values : Dict Text ScalarValue := records.foldl
      (fun values r => (f.2 r).elim values fun value => values.set r.provider value) Dict.empty
    let shown := values.entries.map Prod.snd
    let distinct := shown.any fun v => shown.any fun v' => v ≠ v'
    if distinct && !(f.1 = of "title" && env.titlesCompatible shown) then
      some ⟨f.1, values.entries⟩
    else none

/-- The fields of a snapshot: what is picked, and what is locked. -/
def composeFields (policy : MetadataPolicy) (ordered : List ProviderRecord) : Dict Text FieldValue :=
  let picked := scalarFields.foldl (fun fields f =>
    (pickScalar env.capabilities policy ordered f.1 f.2).elim fields (fields.set f.1)) Dict.empty
  env.locked.foldl (fun fields item =>
    if scalarFields.any fun f => f.1 = item.1 then fields.set item.1 item.2 else fields) picked

/-- `_snapshot_hash`: the times of fetching do not count. -/
def snapshotHash (snapshot : ComposedMetadata) : Text :=
  env.digest { snapshot with
    snapshotHash := []
    fetchedAt := 0
    fields := snapshot.fields.map fun item => (item.1, { item.2 with fetchedAt := 0 }) }

/-- The snapshot of some records that are in the policy's order. -/
def snapshotOf (policy : MetadataPolicy) (ordered : List ProviderRecord) : ComposedMetadata :=
  let array := mergeArray env.capabilities policy ordered
  { identityId := env.identityId
    mediaType := env.mediaType.getD <|
      ((ordered.map ProviderRecord.mediaType).find? (· ≠ .unknown)).getD .unknown
    contentProfile := env.contentProfile
    scope := env.scope
    primaryProvider := policy.primary
    refs := mergeRefs ordered
    fields := (env.composeFields policy ordered).entries
    ratings := mergeRatings env.capabilities policy ordered
    aliases := array (of "aliases") ProviderRecord.aliases
    genres := array (of "genres") ProviderRecord.genres
    tags := array (of "tags") ProviderRecord.tags
    countries := array (of "countries") ProviderRecord.countries
    spokenLanguages := array (of "spoken_languages") ProviderRecord.spokenLanguages
    studios := array (of "studios") ProviderRecord.studios
    labels := array (of "labels") ProviderRecord.labels
    series := array (of "series") ProviderRecord.series
    credits := mergeCredits env.capabilities policy ordered
    seasons := pickCollection env.capabilities policy ordered .seasons ProviderRecord.seasons
    episodes := pickCollection env.capabilities policy ordered .episodes ProviderRecord.episodes
    images := mergeImages env.capabilities policy ordered
    extra := mergeExtra ordered
    conflicts := env.detectConflicts ordered
    fetchedAt := (ordered.map ProviderRecord.fetchedAt).foldl max 0 }

/-- `MetadataComposer.compose`. -/
def composeSnapshot (records : List ProviderRecord) (policy : MetadataPolicy) : ComposedMetadata :=
  let snapshot := env.snapshotOf policy (orderedRecords policy records)
  { snapshot with snapshotHash := env.snapshotHash snapshot }

end ComposeEnv

/-! ## Fetching -/

/-- `_fetch`: the cached records, and those that the jobs find, in the order in which they end; a
job that fails or finds nothing adds none. -/
def fetch (cached : List ProviderRecord) (ended : List (Option ProviderRecord)) :
    List ProviderRecord :=
  cached ++ ended.reduceOption

/-- There is something to compose: a record, and one of the primary provider where the policy
wants it. -/
def Composable (policy : MetadataPolicy) (providers : List Text) : Prop :=
  providers ≠ [] ∧ (policy.allowPartial = true ∨ policy.primary ∈ providers)

instance (policy : MetadataPolicy) (providers : List Text) :
    Decidable (Composable policy providers) := by
  unfold Composable
  infer_instance

/-- `MetadataOrchestrator.compose`. -/
def ComposeEnv.compose (env : ComposeEnv) (policy : MetadataPolicy) (cached : List ProviderRecord)
    (ended : List (Option ProviderRecord)) : Option ComposedMetadata :=
  let records := fetch cached ended
  if Composable policy (records.map ProviderRecord.provider) then
    some (env.composeSnapshot records policy)
  else none

end WolfNas
