import WolfNas.Lib.Dict
import WolfNas.Metadata.Composer

/-!
# The registry of metadata providers, and the cache of their records

Plugins register providers, replace them and take them away; every change moves the registry's
revision on.  The orchestrator keeps the records it fetched under a key with the revision.

## Main definitions

* `Registration`, `MetadataRegistry` — a registration of a provider, the registry.
* `MetadataRegistry.registerProvider`, `MetadataRegistry.unregisterProvider`,
  `MetadataRegistry.popPlugin`, `MetadataRegistry.clear` — its changes.
* `RecordKey`, `CachedRecord` — the key of a record in the cache, and what stands there.
* `FetchPhase`, `MetadataWorld`, `MetadataWorld.step` — the fetch of a reference, step by step,
  among the changes of the registry.
-/

namespace WolfNas

open Text

/-! ## The registry -/

/-- A registration of a provider.  Its number is the registry's revision that it made, so that no
two have one. -/
structure Registration where
  number : ℕ
  pluginId : Text
  resultSchemaVersion : ℤ
  deriving DecidableEq

/-- `MetadataRegistry`, with the calls of `unregister_plugin` that removed something and have not
moved the revision yet. -/
structure MetadataRegistry where
  providers : Dict Text Registration := Dict.empty
  revision : ℕ := 0
  pending : ℕ := 0

/-- `BUILTIN_PLUGIN_ID`. -/
def builtinPluginId : Text := of "builtin"

namespace MetadataRegistry

variable (r : MetadataRegistry)

/-- `get_provider`. -/
def getProvider (key : Text) : Option Registration := r.providers.get key

/-- Something changed. -/
def bump : MetadataRegistry := { r with revision := r.revision + 1 }

/-- `register_provider`: a provider is new, or replaces one of the same plugin; else it raises. -/
def registerProvider (key pluginId : Text) (declaredKey : Option Text) (schema : ℤ) :
    MetadataRegistry :=
  if key = [] ∨ declaredKey.any (· ≠ key) ∨ (r.getProvider key).any (·.pluginId ≠ pluginId) then r
  else { r.bump with providers := r.providers.set key ⟨r.revision + 1, pluginId, schema⟩ }

/-- `unregister_provider`; it raises for another plugin. -/
def unregisterProvider (key : Text) (pluginId : Option Text) : MetadataRegistry :=
  match r.getProvider key with
  | none => r
  | some entry =>
    if pluginId.any (entry.pluginId ≠ ·) then r
    else { r.bump with providers := r.providers.erase key }

/-- `unregister_plugin`, its first block; `others` where discoveries or profiles are removed. -/
def popPlugin (pluginId : Text) (others : Bool) : MetadataRegistry :=
  let removed := others || r.providers.entries.any fun e => e.2.pluginId = pluginId
  { r with
    providers := r.providers.keepOnly fun e => e.2.pluginId ≠ pluginId
    pending := if removed then r.pending + 1 else r.pending }

/-- `unregister_plugin`, its second block. -/
def finishPop : MetadataRegistry :=
  if r.pending = 0 then r else { r.bump with pending := r.pending - 1 }

/-- `clear`. -/
def clear : MetadataRegistry := { r.bump with providers := Dict.empty }

end MetadataRegistry

/-! ## The cache -/

/-- The key of a record in the cache. -/
structure RecordKey where
  provider : Text
  externalId : Text
  scope : Text
  resultSchemaVersion : ℤ
  revision : ℕ
  deriving DecidableEq

/-- An entry of the cache.  `producedBy` is the registration whose provider found the record, and
`late` says that it was no longer registered when the revision of the key was read. -/
structure CachedRecord where
  created : ℚ
  record : ProviderRecord
  producedBy : Registration
  late : Bool

/-- The fetch of a reference.  `seen` is the registration that was there when the revision was
read. -/
inductive FetchPhase
  | idle
  | found (ref : ProviderRef) (registration : Registration)
  | keyed (ref : ProviderRef) (registration : Registration) (revision : ℕ)
      (seen : Option Registration)
  | calling (ref : ProviderRef) (registration : Registration)
  | filing (ref : ProviderRef) (registration : Registration) (revision : ℕ)
      (record : ProviderRecord) (late : Bool)
  | done (record : Option ProviderRecord)

/-- The key that a fetch looks up or files under. -/
def recordKey (ref : ProviderRef) (registration : Registration) (revision : ℕ) : RecordKey where
  provider := ref.provider
  externalId := ref.externalId
  scope := ref.scope
  resultSchemaVersion := registration.resultSchemaVersion
  revision := revision

/-- The registry, the cache and the fetches; `cacheTtl` in seconds. -/
structure MetadataWorld where
  registry : MetadataRegistry := {}
  cache : RecordKey → Option CachedRecord := fun _ => none
  fetches : ℕ → FetchPhase := fun _ => .idle
  cacheTtl : ℚ := 1800

/-- The steps that fetches and changes of the registry are made of. -/
inductive MetadataMove
  | register (key pluginId : Text) (declaredKey : Option Text) (schema : ℤ)
  | unregister (key : Text) (pluginId : Option Text)
  | popPlugin (pluginId : Text) (others : Bool)
  | finishPop
  | changeOther
  | clearRegistry
  | clearCache
  | start (i : ℕ) (ref : ProviderRef)
  | readRevision (i : ℕ)
  | lookUp (i : ℕ) (now : ℚ) (acquired : Bool)
  | jobEnds (i : ℕ) (outcome : Option ProviderRecord)
  | file (i : ℕ) (now : ℚ)

namespace MetadataWorld

variable (w : MetadataWorld)

/-- A fetch goes on. -/
def enter (i : ℕ) (phase : FetchPhase) : MetadataWorld :=
  { w with fetches := fun j => if j = i then phase else w.fetches j }

/-- What `_cache_get` finds. -/
def cached (key : RecordKey) (now : ℚ) : Option CachedRecord :=
  if w.cacheTtl = 0 then none
  else (w.cache key).filter fun e => now - e.created ≤ w.cacheTtl

/-- `_cache_get`: an entry that is too old is removed. -/
def cacheGet (key : RecordKey) (now : ℚ) : MetadataWorld :=
  if w.cacheTtl = 0 ∨ (w.cached key now).isSome then w
  else { w with cache := fun k => if k = key then none else w.cache k }

/-- `_cache_put`. -/
def cachePut (key : RecordKey) (entry : CachedRecord) : MetadataWorld :=
  if w.cacheTtl = 0 then w
  else { w with cache := fun k => if k = key then some entry else w.cache k }

/-- One step of `_fetch` for a reference: the provider, the revision, the cache; where there is no
record, the call of the provider, the revision again, and the cache again. -/
def step : MetadataMove → MetadataWorld
  | .register key pluginId declaredKey schema =>
    { w with registry := w.registry.registerProvider key pluginId declaredKey schema }
  | .unregister key pluginId => { w with registry := w.registry.unregisterProvider key pluginId }
  | .popPlugin pluginId others => { w with registry := w.registry.popPlugin pluginId others }
  | .finishPop => { w with registry := w.registry.finishPop }
  | .changeOther => { w with registry := w.registry.bump }
  | .clearRegistry => { w with registry := w.registry.clear }
  | .clearCache => { w with cache := fun _ => none }
  | .start i ref =>
    match w.fetches i, w.registry.getProvider ref.provider with
    | .idle, some registration => w.enter i (.found ref registration)
    | .idle, none => w.enter i (.done none)
    | _, _ => w
  | .readRevision i =>
    match w.fetches i with
    | .found ref registration =>
      w.enter i (.keyed ref registration w.registry.revision (w.registry.getProvider ref.provider))
    | _ => w
  | .lookUp i now acquired =>
    match w.fetches i with
    | .keyed ref registration revision _ =>
      let key := recordKey ref registration revision
      match w.cached key now with
      | some e => w.enter i (.done (some e.record))
      | none =>
        -- the provider's runtime may refuse the call
        (w.cacheGet key now).enter i (if acquired then .calling ref registration else .done none)
    | _ => w
  | .jobEnds i outcome =>
    match w.fetches i with
    | .calling ref registration =>
      match outcome with
      | none => w.enter i (.done none)
      | some record =>
        w.enter i (.filing ref registration w.registry.revision record
          (w.registry.getProvider ref.provider ≠ some registration))
    | _ => w
  | .file i now =>
    match w.fetches i with
    | .filing ref registration revision record late =>
      (w.cachePut (recordKey ref registration revision)
        ⟨now, record, registration, late⟩).enter i (.done (some record))
    | _ => w

end MetadataWorld

end WolfNas
