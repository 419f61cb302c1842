import WolfNas.Lib.Run
import WolfNas.Metadata.Registry
import Mathlib.Logic.Function.Basic

/-!
# Who may change the registry of metadata extensions

The registry keeps the providers, the discoveries and five kinds of profiles, all under one
revision.  A plugin registers, replaces and removes entries under its own id, and the host removes
any.  `unregister_plugin` looks the hooks of the removed objects up outside of the block that
suppresses their exceptions, so that a hook that cannot be looked up fails a call that has changed
the stores.

## Main definitions

* `RegistryStore`, `RegistryEntry`, `RegistryStores` — the stores and their revision.
* `RegistryObjects` — what the registry asks of the objects that are registered.
* `RegistryCall`, `RegistryStores.call` — the calls, and what they do.
* `RegistryStores.Lawful` — a call that changes what its caller owns, or nothing.

## Main results

* `RegistryStores.lawful_iff` — the calls that are lawful.
* `registry_lawful_iff` — the runs all of whose calls are.
-/

namespace WolfNas

open Text

/-! ## The stores -/

/-- `PROFILE_KINDS`. -/
inductive ProfileKind
  | content
  | matching
  | parser
  | naming
  | nfo
  deriving DecidableEq

/-- The kind of a name, if it is in `PROFILE_KINDS`. -/
def ProfileKind.ofText (kind : Text) : Option ProfileKind :=
  if kind = of "content" then some .content
  else if kind = of "match" then some .matching
  else if kind = of "parser" then some .parser
  else if kind = of "naming" then some .naming
  else if kind = of "nfo" then some .nfo
  else none

/-- `_providers`, `_discoveries`, and the stores in `_profiles`. -/
inductive RegistryStore
  | providers
  | discoveries
  | profiles (kind : ProfileKind)
  deriving DecidableEq

/-- The stores that `unregister_plugin` goes through. -/
def RegistryStore.all : List RegistryStore :=
  [.providers, .discoveries, .profiles .content, .profiles .matching, .profiles .parser,
    .profiles .naming, .profiles .nfo]

theorem RegistryStore.mem_all (s : RegistryStore) : s ∈ RegistryStore.all := by
  cases s with
  | providers => simp [all]
  | discoveries => simp [all]
  | profiles kind => cases kind <;> simp [all]

/-- `_Entry`. -/
structure RegistryEntry (O : Type) where
  pluginId : Text
  obj : O

/-- `MetadataRegistry`, with all its stores. -/
structure RegistryStores (O : Type) where
  store : RegistryStore → Dict Text (RegistryEntry O) := fun _ => Dict.empty
  revision : ℕ := 0

/-- What `getattr(obj, "on_unregister", None)` and the call of what it finds come to.  Only the
call stands in the block that suppresses an `Exception`. -/
inductive UnregisterHook
  | absent
  | returns
  | raises
  | exits
  | lookupRaises
  deriving DecidableEq

/-- An exception of the hook leaves `unregister_plugin`. -/
def UnregisterHook.escapes : UnregisterHook → Bool
  | .absent | .returns | .raises => false
  | .exits | .lookupRaises => true

/-- What the registry asks of the objects: the provider key of the descriptor that they show, if
they do, and the hook that they have for a plugin that leaves. -/
structure RegistryObjects (O : Type) where
  providerKey : O → Option Text
  onUnregister : O → Text → UnregisterHook

/-- What a call raises. -/
inductive RegistryRaise
  | valueError (message : Text)
  | ofHook
  deriving DecidableEq

/-- The calls that change the registry. -/
inductive RegistryCall (O : Type)
  | registerProvider (provider : O) (pluginId : Text) (declaredKey : Option Text)
  | unregisterProvider (providerKey : Text) (pluginId : Option Text)
  | registerDiscoveryProvider (provider : O) (pluginId : Text) (declaredKey : Option Text)
  | unregisterDiscoveryProvider (providerKey : Text) (pluginId : Option Text)
  | registerProfile (kind key : Text) (profile : O) (pluginId : Text) (declaredKey : Option Text)
  | unregisterProfile (kind key : Text) (pluginId : Option Text)
  | unregisterPlugin (pluginId : Text)
  | clear

/-- The plugin that makes a call; none is the host. -/
def RegistryCall.caller {O : Type} : RegistryCall O → Option Text
  | registerProvider _ pluginId _ | registerDiscoveryProvider _ pluginId _
  | registerProfile _ _ _ pluginId _ => some pluginId
  | unregisterProvider _ pluginId | unregisterDiscoveryProvider _ pluginId
  | unregisterProfile _ _ pluginId => pluginId
  | unregisterPlugin pluginId => some pluginId
  | clear => none

namespace RegistryStores

variable {O : Type} (objects : RegistryObjects O) (r : RegistryStores O)

/-- One store is changed, and the revision goes on. -/
def put (s : RegistryStore) (d : Dict Text (RegistryEntry O)) : RegistryStores O where
  store := Function.update r.store s d
  revision := r.revision + 1

/-- The entry of a key in a store. -/
def entry (s : RegistryStore) (key : Text) : Option (RegistryEntry O) := (r.store s).get key

/-- Why `_register_entry` raises, if it does. -/
def registerRefusal (s : RegistryStore) (key pluginId : Text) (declaredKey : Option Text) :
    Option Text :=
  if key = [] then some (of "注册 key 不能为空")
  else if declaredKey.any (· ≠ key) then
    some (of "注册 key 与 manifest 声明不一致: " ++ declaredKey.getD [] ++ of " != " ++ key)
  else match r.entry s key with
    | none => none
    | some existing =>
      if existing.pluginId = pluginId then none
      else if existing.pluginId = builtinPluginId then some (of "内置 key 不可被插件覆盖: " ++ key)
      else some (of "key 已由插件 " ++ existing.pluginId ++ of " 注册，不能覆盖: " ++ key)

/-- `_register_entry`. -/
def registerEntry (s : RegistryStore) (key : Text) (obj : O) (pluginId : Text)
    (declaredKey : Option Text) : RegistryStores O × Option RegistryRaise :=
  match r.registerRefusal s key pluginId declaredKey with
  | some message => (r, some (.valueError message))
  | none => (r.put s ((r.store s).set key ⟨pluginId, obj⟩), none)

/-- `_unregister_entry`. -/
def unregisterEntry (s : RegistryStore) (key : Text) (pluginId : Option Text) :
    RegistryStores O × Option RegistryRaise :=
  match r.entry s key with
  | none => (r, none)
  | some entry =>
    if pluginId.any (entry.pluginId ≠ ·) then
      (r, some (.valueError (of "无权注销 key: " ++ key)))
    else (r.put s ((r.store s).erase key), none)

/-- `_descriptor_of`, and the registration under its key. -/
def registerDescribed (s : RegistryStore) (provider : O) (pluginId : Text)
    (declaredKey : Option Text) : RegistryStores O × Option RegistryRaise :=
  match objects.providerKey provider with
  | none => (r, some (.valueError (of "provider 必须暴露 ProviderDescriptor")))
  | some key => r.registerEntry s key provider pluginId declaredKey

/-- What a call does under a kind of profiles. -/
def underKind (kind : Text)
    (f : RegistryStore → RegistryStores O × Option RegistryRaise) :
    RegistryStores O × Option RegistryRaise :=
  match ProfileKind.ofText kind with
  | none => (r, some (.valueError (of "未知 profile 类型: " ++ kind)))
  | some kind => f (.profiles kind)

/-- The objects that a plugin has registered. -/
def ownedBy (pluginId : Text) : List O :=
  RegistryStore.all.flatMap fun s =>
    ((r.store s).entries.filter fun e => e.2.pluginId = pluginId).map fun e => e.2.obj

/-- `unregister_plugin`. -/
def unregisterPlugin (pluginId : Text) : RegistryStores O × Option RegistryRaise :=
  let removed := r.ownedBy pluginId
  ({ store := fun s => (r.store s).keepOnly fun e => e.2.pluginId ≠ pluginId
     revision := if removed.isEmpty then r.revision else r.revision + 1 },
    if removed.any fun obj => (objects.onUnregister obj pluginId).escapes then some .ofHook
    else none)

/-- `clear`. -/
def clear : RegistryStores O where
  revision := r.revision + 1

/-- What a call does to the registry, and what it raises. -/
def call : RegistryCall O → RegistryStores O × Option RegistryRaise
  | .registerProvider provider pluginId declaredKey =>
    r.registerDescribed objects .providers provider pluginId declaredKey
  | .unregisterProvider key pluginId => r.unregisterEntry .providers key pluginId
  | .registerDiscoveryProvider provider pluginId declaredKey =>
    r.registerDescribed objects .discoveries provider pluginId declaredKey
  | .unregisterDiscoveryProvider key pluginId => r.unregisterEntry .discoveries key pluginId
  | .registerProfile kind key profile pluginId declaredKey =>
    r.underKind kind fun s => r.registerEntry s key profile pluginId declaredKey
  | .unregisterProfile kind key pluginId =>
    r.underKind kind fun s => r.unregisterEntry s key pluginId
  | .unregisterPlugin pluginId => r.unregisterPlugin objects pluginId
  | .clear => (r.clear, none)

/-- The registry after a call. -/
def step (c : RegistryCall O) : RegistryStores O := (r.call objects c).1

/-! ## What a call may do -/

/-- From one registry to the next, with what was raised, on behalf of a caller: only what the
caller owns is replaced or removed, nothing is changed where something is raised, and the revision
goes up where a store changes. -/
structure Allows (caller : Option Text) (next : RegistryStores O × Option RegistryRaise) :
    Prop where
  owned : ∀ s key e, r.entry s key = some e → next.1.entry s key ≠ some e →
    caller = none ∨ caller = some e.pluginId
  whole : next.2 ≠ none → next.1 = r
  counted : next.1.store ≠ r.store → r.revision < next.1.revision

/-- A call does what its caller may do. -/
def Lawful (c : RegistryCall O) : Prop := r.Allows c.caller (r.call objects c)

/-- No hook of an object that the call removes for a plugin gets out of it. -/
def HooksStay : RegistryCall O → Prop
  | .unregisterPlugin pluginId => ∀ s key e, r.entry s key = some e → e.pluginId = pluginId →
      (objects.onUnregister e.obj pluginId).escapes = false
  | _ => True

variable {objects r} {caller : Option Text}

/-- A call that changes nothing is allowed. -/
theorem Allows.refused (raised : Option RegistryRaise) : r.Allows caller (r, raised) where
  owned _ _ _ he hne := absurd he hne
  whole _ := rfl
  counted h := absurd rfl h

/-- A change of one key of one store is allowed to who owns its entry, if there is one. -/
theorem Allows.put {s : RegistryStore} (key : Text) {d : Dict Text (RegistryEntry O)}
    (hd : ∀ x, x ≠ key → d.get x = (r.store s).get x)
    (hown : ∀ e, r.entry s key = some e → caller = none ∨ caller = some e.pluginId) :
    r.Allows caller (r.put s d, none) where
  owned t x e he hne := by
    by_cases hts : t = s
    · subst hts
      by_cases hx : x = key
      · subst hx
        exact hown e he
      · have hsame : (r.put t d).entry t x = r.entry t x := by
          simp [entry, RegistryStores.put, hd x hx]
        exact absurd (hsame.trans he) hne
    · have hsame : (r.put s d).entry t x = r.entry t x := by
        simp [entry, RegistryStores.put, hts]
      exact absurd (hsame.trans he) hne
  whole h := absurd rfl h
  counted _ := Nat.lt_succ_self r.revision

/-- Where `_register_entry` refuses nothing, the caller owns the entry. -/
theorem owns_of_registerRefusal {s : RegistryStore} {key pluginId : Text}
    {declaredKey : Option Text} (h : r.registerRefusal s key pluginId declaredKey = none)
    {e : RegistryEntry O} (he : r.entry s key = some e) : e.pluginId = pluginId := by
  by_contra hne
  simp only [registerRefusal, he, if_neg hne] at h
  split_ifs at h

theorem allows_registerEntry (s : RegistryStore) (key : Text) (obj : O) (pluginId : Text)
    (declaredKey : Option Text) :
    r.Allows (some pluginId) (r.registerEntry s key obj pluginId declaredKey) := by
  rw [registerEntry]
  cases hrefusal : r.registerRefusal s key pluginId declaredKey with
  | some message => exact Allows.refused _
  | none =>
    refine Allows.put key (fun x hx => ?_) fun e he => .inr ?_
    · rw [Dict.get_set, if_neg hx]
    · rw [owns_of_registerRefusal hrefusal he]

theorem allows_unregisterEntry (s : RegistryStore) (key : Text) (pluginId : Option Text) :
    r.Allows pluginId (r.unregisterEntry s key pluginId) := by
  rw [unregisterEntry]
  cases he : r.entry s key with
  | none => exact Allows.refused _
  | some entry =>
    by_cases hother : pluginId.any (entry.pluginId ≠ ·)
    · simp only [if_pos hother]
      exact Allows.refused _
    · simp only [if_neg hother]
      refine Allows.put key (fun x hx => ?_) fun e he' => ?_
      · rw [Dict.get_erase, if_neg hx]
      · cases he.symm.trans he'
        cases pluginId with
        | none => exact .inl rfl
        | some p =>
          have hid : entry.pluginId = p := by simpa using hother
          exact .inr (congrArg some hid.symm)

theorem allows_registerDescribed (s : RegistryStore) (provider : O) (pluginId : Text)
    (declaredKey : Option Text) :
    r.Allows (some pluginId) (r.registerDescribed objects s provider pluginId declaredKey) := by
  rw [registerDescribed]
  cases objects.providerKey provider with
  | none => exact Allows.refused _
  | some key => exact allows_registerEntry _ _ _ _ _

theorem allows_underKind {kind : Text} {f : RegistryStore → RegistryStores O × Option RegistryRaise}
    (hf : ∀ s, r.Allows caller (f s)) : r.Allows caller (r.underKind kind f) := by
  rw [underKind]
  cases ProfileKind.ofText kind with
  | none => exact Allows.refused _
  | some kind => exact hf _

/-! ## The removal of a plugin -/

/-- The objects of a plugin are those of its entries. -/
theorem mem_ownedBy {pluginId : Text} {obj : O} : obj ∈ r.ownedBy pluginId ↔
    ∃ s key e, r.entry s key = some e ∧ e.pluginId = pluginId ∧ e.obj = obj := by
  simp only [ownedBy, List.mem_flatMap, List.mem_map, List.mem_filter, decide_eq_true_eq]
  constructor
  · intro ⟨s, _, ⟨key, e⟩, ⟨hmem, hid⟩, hobj⟩
    exact ⟨s, key, e, Dict.mem_entries_iff.mp hmem, hid, hobj⟩
  · intro ⟨s, key, e, he, hid, hobj⟩
    exact ⟨s, s.mem_all, (key, e), ⟨Dict.mem_entries_iff.mpr he, hid⟩, hobj⟩

/-- What a plugin owns is removed with it, and nothing else. -/
theorem entry_unregisterPlugin {pluginId key : Text} {s : RegistryStore} {e : RegistryEntry O} :
    (r.unregisterPlugin objects pluginId).1.entry s key = some e ↔
      r.entry s key = some e ∧ e.pluginId ≠ pluginId := by
  rw [entry, ← Dict.mem_entries_iff]
  change (key, e) ∈ (r.store s).entries.filter _ ↔ _
  rw [List.mem_filter, Dict.mem_entries_iff, decide_eq_true_eq]
  rfl

/-- Where a plugin has no objects, nothing is removed. -/
theorem store_unregisterPlugin {pluginId : Text} (h : r.ownedBy pluginId = []) :
    (r.unregisterPlugin objects pluginId).1.store = r.store := by
  funext s
  refine Dict.keepOnly_eq_self fun e he => decide_eq_true fun hid => ?_
  have hmem : e.2.obj ∈ r.ownedBy pluginId :=
    mem_ownedBy.mpr ⟨s, e.1, e.2, Dict.mem_entries_iff.mp he, hid, rfl⟩
  rw [h] at hmem
  cases hmem

/-- The removal of a plugin raises where a hook gets out of it. -/
theorem raise_unregisterPlugin {pluginId : Text} :
    (r.unregisterPlugin objects pluginId).2 = none ↔
      ∀ obj ∈ r.ownedBy pluginId, (objects.onUnregister obj pluginId).escapes = false := by
  rw [unregisterPlugin]
  simp

/-- The removal of a plugin is lawful exactly where no hook gets out of it. -/
theorem lawful_unregisterPlugin_iff {pluginId : Text} :
    r.Lawful objects (.unregisterPlugin pluginId) ↔
      r.HooksStay objects (.unregisterPlugin pluginId) := by
  constructor
  · intro h s key e he hid
    by_contra hescapes
    have hraise : (r.unregisterPlugin objects pluginId).2 ≠ none := fun hnone =>
      hescapes (raise_unregisterPlugin.mp hnone e.obj (mem_ownedBy.mpr ⟨s, key, e, he, hid, rfl⟩))
    have hkept : (r.unregisterPlugin objects pluginId).1.entry s key = some e :=
      (congrArg (fun r' => r'.entry s key) (h.whole hraise)).trans he
    exact (entry_unregisterPlugin.mp hkept).2 hid
  · intro h
    refine ⟨fun s key e he hne => .inr ?_, fun hraise => ?_, fun hchanged => ?_⟩
    · by_contra hid
      exact hne (entry_unregisterPlugin.mpr ⟨he, fun hid' => hid (congrArg some hid'.symm)⟩)
    · refine absurd (raise_unregisterPlugin.mpr fun obj hobj => ?_) hraise
      obtain ⟨s, key, e, he, hid, rfl⟩ := mem_ownedBy.mp hobj
      exact h s key e he hid
    · have hsome : r.ownedBy pluginId ≠ [] := fun hnone =>
        hchanged (store_unregisterPlugin hnone)
      simp [call, unregisterPlugin, hsome]

/-- A call is lawful exactly where no hook gets out of it. -/
theorem lawful_iff (c : RegistryCall O) : r.Lawful objects c ↔ r.HooksStay objects c := by
  cases c with
  | registerProvider provider pluginId declaredKey =>
    exact iff_of_true (allows_registerDescribed _ _ _ _) trivial
  | unregisterProvider key pluginId => exact iff_of_true (allows_unregisterEntry _ _ _) trivial
  | registerDiscoveryProvider provider pluginId declaredKey =>
    exact iff_of_true (allows_registerDescribed _ _ _ _) trivial
  | unregisterDiscoveryProvider key pluginId =>
    exact iff_of_true (allows_unregisterEntry _ _ _) trivial
  | registerProfile kind key profile pluginId declaredKey =>
    have hallows : r.Allows (some pluginId)
        (r.underKind kind fun s => r.registerEntry s key profile pluginId declaredKey) :=
      allows_underKind fun s => allows_registerEntry s key profile pluginId declaredKey
    exact iff_of_true hallows trivial
  | unregisterProfile kind key pluginId =>
    have hallows : r.Allows pluginId
        (r.underKind kind fun s => r.unregisterEntry s key pluginId) :=
      allows_underKind fun s => allows_unregisterEntry s key pluginId
    exact iff_of_true hallows trivial
  | unregisterPlugin pluginId => exact lawful_unregisterPlugin_iff
  | clear =>
    refine iff_of_true ⟨fun _ _ _ _ _ => .inl rfl, fun h => absurd rfl h, fun _ => ?_⟩ trivial
    exact Nat.lt_succ_self r.revision

end RegistryStores

/-- In a run of calls on a new registry, every entry is replaced or removed by its owner or the
host only, what raises changes nothing and what changes a store raises the revision, exactly where
no call removes an object whose hook gets out of it. -/
theorem registry_lawful_iff {O : Type} (objects : RegistryObjects O)
    (calls : List (RegistryCall O)) :
    Run.Along (RegistryStores.step objects) (RegistryStores.Lawful objects) {} calls ↔
      Run.Along (RegistryStores.step objects) (RegistryStores.HooksStay objects) {} calls :=
  Run.along_iff fun _ c => RegistryStores.lawful_iff c

/-- A provider whose `on_unregister` cannot be looked up. -/
def brokenHook : RegistryObjects Unit where
  providerKey _ := some (of "tmdb")
  onUnregister _ _ := .lookupRaises

/-- The removal of its plugin raises, and the provider is gone. -/
theorem registry_not_lawful_broken :
    ¬Run.Along (RegistryStores.step brokenHook) (RegistryStores.Lawful brokenHook) {}
      [.registerProvider () (of "extra") none, .unregisterPlugin (of "extra")] := by
  intro h
  have hwhole := h.2.1.whole (by decide)
  have hrevision := congrArg RegistryStores.revision hwhole
  revert hrevision
  decide

end WolfNas
