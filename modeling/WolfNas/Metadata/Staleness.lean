import WolfNas.Lib.Run
import WolfNas.Metadata.Registry

/-!
# Records of providers that are gone

The revision in the key of a cached record stands for the registrations that there were when it was
read.  A fetch reads it after the call of the provider, so that a provider that was replaced during
its call files its record under the revision of the new one.

## Main definitions

* `MetadataWorld.returned` — what a step returns from the cache, and what is registered then.
* `MetadataWorld.InTime` — neither the entry that a step returns was filed late, nor is the step.
* `MetadataWorld.Dated` — what the revisions say of the registrations.

## Main results

* `MetadataWorld.dated_step` — every step keeps the revisions in order.
* `MetadataWorld.current_iff` — exactly where every lookup is in time, no record of a provider that
  is gone is returned.
* `MetadataWorld.replaced_during_call` — a provider that was replaced during its call.
-/

namespace WolfNas

open Text

/-- A record that is returned from the cache: the registration that produced it, and the one that
there is. -/
structure CacheReturn where
  producedBy : Registration
  current : Option Registration
  deriving DecidableEq

namespace MetadataWorld

/-- What a step returns from the cache. -/
def returned (w : MetadataWorld) : MetadataMove → List CacheReturn
  | .lookUp i now _ =>
    match w.fetches i with
    | .keyed ref registration revision _ =>
      ((w.cached (recordKey ref registration revision) now).map fun e =>
        ⟨e.producedBy, w.registry.getProvider ref.provider⟩).toList
    | _ => []
  | _ => []

/-- A step is in time: the record it returns was filed by a fetch whose provider was still
registered when it read the revision, and the provider that was registered when this fetch read
the revision still is. -/
def InTime (w : MetadataWorld) : MetadataMove → Prop
  | .lookUp i now _ =>
    match w.fetches i with
    | .keyed ref registration revision seen =>
      ∀ e ∈ w.cached (recordKey ref registration revision) now,
        e.late = false ∧ seen ≠ none ∧ w.registry.getProvider ref.provider = seen
    | _ => True
  | _ => True

/-! ## Revisions -/

/-- A registration was there when the revision was read: a later one is newer than the revision. -/
def Registered (r : MetadataRegistry) (key : Text) (revision : ℕ) (n : Registration) : Prop :=
  n.number ≤ revision ∧
    ∀ m, r.getProvider key = some m → m.number ≤ revision → m = n

/-- A registration is gone. -/
def Gone (r : MetadataRegistry) (key : Text) (n : Registration) : Prop :=
  n.number ≤ r.revision ∧ r.getProvider key ≠ some n

/-- The record of a registration under a revision: it was there when the revision was read, or is
gone. -/
def Filed (r : MetadataRegistry) (key : Text) (revision : ℕ) (n : Registration) (late : Bool) :
    Prop :=
  revision ≤ r.revision ∧ if late then Gone r key n else Registered r key revision n

/-- What a fetch has read. -/
def PhaseDated (r : MetadataRegistry) : FetchPhase → Prop
  | .found _ n => n.number ≤ r.revision
  | .keyed ref n revision seen =>
    n.number ≤ r.revision ∧ revision ≤ r.revision ∧ (∀ n, seen = some n → Registered r ref.provider revision n) ∧
      ∀ m, r.getProvider ref.provider = some m → m.number ≤ revision → seen = some m
  | .calling _ n => n.number ≤ r.revision
  | .filing ref n revision _ late => Filed r ref.provider revision n late
  | _ => True

/-- What the revisions say of the registrations. -/
structure Dated (w : MetadataWorld) : Prop where
  numbers : ∀ key n, w.registry.getProvider key = some n → n.number ≤ w.registry.revision
  cache : ∀ key e, w.cache key = some e →
    Filed w.registry key.provider key.revision e.producedBy e.late
  fetches : ∀ i, PhaseDated w.registry (w.fetches i)

/-- The registry goes on: its revision does not fall, and what is new is newer than all before. -/
structure GoesOn (r r' : MetadataRegistry) : Prop where
  revision_le : r.revision ≤ r'.revision
  old_or_new : ∀ key n, r'.getProvider key = some n →
    r.getProvider key = some n ∨ n.number = r'.revision ∧ r.revision < r'.revision

section GoesOn

variable {r r' : MetadataRegistry} {key : Text} {revision : ℕ} {n : Registration} {late : Bool}

theorem Registered.goesOn (h : Registered r key revision n) (hle : revision ≤ r.revision)
    (hr : GoesOn r r') : Registered r' key revision n := by
  refine ⟨h.1, ?_⟩
  intro m hm hnumber
  rcases hr.old_or_new key m hm with hold | ⟨hnew, hlt⟩
  · exact h.2 m hold hnumber
  · omega

theorem Gone.goesOn (h : Gone r key n) (hr : GoesOn r r') : Gone r' key n := by
  refine ⟨le_trans h.1 hr.revision_le, ?_⟩
  intro hn
  have hnumber := h.1
  rcases hr.old_or_new key n hn with hold | ⟨hnew, hlt⟩
  · exact h.2 hold
  · omega

theorem Filed.goesOn (h : Filed r key revision n late) (hr : GoesOn r r') :
    Filed r' key revision n late := by
  refine ⟨le_trans h.1 hr.revision_le, ?_⟩
  have hfiled := h.2
  cases late with
  | true => exact Gone.goesOn hfiled hr
  | false => exact Registered.goesOn hfiled h.1 hr

theorem PhaseDated.goesOn {phase : FetchPhase} (h : PhaseDated r phase) (hr : GoesOn r r') :
    PhaseDated r' phase := by
  cases phase with
  | idle => trivial
  | found ref n => exact le_trans h hr.revision_le
  | keyed ref m revision seen =>
    obtain ⟨hn, hle, hseen, hlast⟩ := h
    refine ⟨le_trans hn hr.revision_le, le_trans hle hr.revision_le,
      fun n hn => (hseen n hn).goesOn hle hr, ?_⟩
    intro m hm hnumber
    rcases hr.old_or_new ref.provider m hm with hold | ⟨hnew, hlt⟩
    · exact hlast m hold hnumber
    · omega
  | calling ref n => exact le_trans h hr.revision_le
  | filing ref n revision record late => exact Filed.goesOn h hr
  | done record => trivial

end GoesOn

/-! ## The changes of the registry -/

theorem goesOn_refl (r : MetadataRegistry) : GoesOn r r := ⟨le_refl _, fun _ _ h => .inl h⟩

/-- What only takes registrations away, and does not turn the revision back, goes on. -/
theorem goesOn_of_subset {r r' : MetadataRegistry} (hle : r.revision ≤ r'.revision)
    (h : ∀ key n, r'.getProvider key = some n → r.getProvider key = some n) : GoesOn r r' :=
  ⟨hle, fun key n hn => .inl (h key n hn)⟩

theorem goesOn_registerProvider (r : MetadataRegistry) (key pluginId : Text)
    (declaredKey : Option Text) (schema : ℤ) :
    GoesOn r (r.registerProvider key pluginId declaredKey schema) := by
  unfold MetadataRegistry.registerProvider
  split_ifs with hrefused
  · exact goesOn_refl r
  · refine ⟨Nat.le_succ _, ?_⟩
    intro x n hn
    change (r.providers.set key _).get x = some n at hn
    rw [Dict.get_set] at hn
    split_ifs at hn with hx
    · obtain rfl := Option.some.inj hn
      exact .inr ⟨rfl, Nat.lt_succ_self _⟩
    · exact .inl hn

theorem goesOn_unregisterProvider (r : MetadataRegistry) (key : Text) (pluginId : Option Text) :
    GoesOn r (r.unregisterProvider key pluginId) := by
  unfold MetadataRegistry.unregisterProvider
  cases r.getProvider key with
  | none => exact goesOn_refl r
  | some entry =>
    dsimp only
    split_ifs with hother
    · exact goesOn_refl r
    · refine goesOn_of_subset (Nat.le_succ _) ?_
      intro x n hn
      change (r.providers.erase key).get x = some n at hn
      rw [Dict.get_erase] at hn
      split_ifs at hn
      exact hn

theorem goesOn_popPlugin (r : MetadataRegistry) (pluginId : Text) (others : Bool) :
    GoesOn r (r.popPlugin pluginId others) :=
  goesOn_of_subset (le_refl _) fun _ _ hn => Dict.get_of_keepOnly hn

theorem goesOn_finishPop (r : MetadataRegistry) : GoesOn r r.finishPop := by
  unfold MetadataRegistry.finishPop
  split_ifs with hnone
  · exact goesOn_refl r
  · exact goesOn_of_subset (Nat.le_succ _) fun _ _ hn => hn

theorem goesOn_clear (r : MetadataRegistry) : GoesOn r r.clear := by
  refine goesOn_of_subset (Nat.le_succ _) ?_
  intro key n hn
  cases hn

/-! ## Steps -/

variable {w : MetadataWorld}

/-- A change of the registry keeps the revisions in order. -/
theorem Dated.registry (h : w.Dated) {r' : MetadataRegistry} (hr : GoesOn w.registry r') :
    Dated { w with registry := r' } where
  numbers := by
    intro key n hn
    rcases hr.old_or_new key n hn with hold | ⟨hnew, -⟩
    · exact le_trans (h.numbers key n hold) hr.revision_le
    · exact hnew.le
  cache := fun key e he => (h.cache key e he).goesOn hr
  fetches := fun i => (h.fetches i).goesOn hr

/-- A fetch that goes on keeps the revisions in order where what it has read is. -/
theorem Dated.enter (h : w.Dated) {i : ℕ} {phase : FetchPhase}
    (hphase : PhaseDated w.registry phase) : (w.enter i phase).Dated where
  numbers := h.numbers
  cache := h.cache
  fetches := by
    intro j
    change PhaseDated w.registry (if j = i then phase else w.fetches j)
    split_ifs
    · exact hphase
    · exact h.fetches j

theorem Dated.cacheGet (h : w.Dated) (key : RecordKey) (now : ℚ) : (w.cacheGet key now).Dated := by
  unfold MetadataWorld.cacheGet
  split_ifs
  · exact h
  · refine ⟨h.numbers, ?_, h.fetches⟩
    intro k e he
    change (if k = key then none else w.cache k) = some e at he
    split_ifs at he
    exact h.cache k e he

theorem Dated.cachePut (h : w.Dated) {key : RecordKey} {e : CachedRecord}
    (he : Filed w.registry key.provider key.revision e.producedBy e.late) :
    (w.cachePut key e).Dated := by
  unfold MetadataWorld.cachePut
  split_ifs
  · exact h
  · refine ⟨h.numbers, ?_, h.fetches⟩
    intro k e' hk
    change (if k = key then some e else w.cache k) = some e' at hk
    split_ifs at hk with hkey
    · obtain rfl := Option.some.inj hk
      exact hkey ▸ he
    · exact h.cache k e' hk

@[simp] theorem registry_cacheGet (key : RecordKey) (now : ℚ) :
    (w.cacheGet key now).registry = w.registry := by
  unfold MetadataWorld.cacheGet
  split_ifs <;> rfl

@[simp] theorem registry_cachePut (key : RecordKey) (e : CachedRecord) :
    (w.cachePut key e).registry = w.registry := by
  unfold MetadataWorld.cachePut
  split_ifs <;> rfl

/-- **One step** keeps the revisions in order. -/
theorem dated_step (h : w.Dated) (move : MetadataMove) : (w.step move).Dated := by
  cases move with
  | register key pluginId declaredKey schema =>
    exact h.registry (goesOn_registerProvider _ _ _ _ _)
  | unregister key pluginId => exact h.registry (goesOn_unregisterProvider _ _ _)
  | popPlugin pluginId others => exact h.registry (goesOn_popPlugin _ _ _)
  | finishPop => exact h.registry (goesOn_finishPop _)
  | changeOther => exact h.registry (goesOn_of_subset (Nat.le_succ _) fun _ _ hn => hn)
  | clearRegistry => exact h.registry (goesOn_clear _)
  | clearCache =>
    refine ⟨h.numbers, ?_, h.fetches⟩
    intro key e he
    cases he
  | start i ref =>
    dsimp only [step]
    split
    · rename_i registration hidle hregistered
      exact h.enter (h.numbers _ _ hregistered)
    · exact h.enter trivial
    · exact h
  | readRevision i =>
    dsimp only [step]
    split
    · rename_i ref registration hfound
      have hphase := h.fetches i
      rw [hfound] at hphase
      refine h.enter ⟨hphase, le_refl _, ?_, fun m hm _ => hm⟩
      intro n hn
      refine ⟨h.numbers _ _ hn, ?_⟩
      intro m hm _
      exact Option.some.inj (hm.symm.trans hn)
    · exact h
  | lookUp i now acquired =>
    dsimp only [step]
    split
    · rename_i ref registration revision seen hkeyed
      have hphase := h.fetches i
      rw [hkeyed] at hphase
      split
      · exact h.enter trivial
      · refine (h.cacheGet _ _).enter ?_
        rw [registry_cacheGet]
        cases acquired with
        | true => exact hphase.1
        | false => trivial
    · exact h
  | jobEnds i outcome =>
    dsimp only [step]
    split
    · rename_i ref registration hcalling
      have hphase := h.fetches i
      rw [hcalling] at hphase
      cases outcome with
      | none => exact h.enter trivial
      | some record =>
        refine h.enter ⟨le_refl _, ?_⟩
        by_cases hsame : w.registry.getProvider ref.provider = some registration
        · simp only [hsame, ne_eq, not_true_eq_false, decide_false, Bool.false_eq_true, if_false]
          refine ⟨hphase, ?_⟩
          intro m hm _
          exact Option.some.inj (hm.symm.trans hsame)
        · simp only [hsame, ne_eq, not_false_eq_true, decide_true, if_true]
          exact ⟨hphase, hsame⟩
    · exact h
  | file i now =>
    dsimp only [step]
    split
    · rename_i ref registration revision record late hfiling
      have hphase := h.fetches i
      rw [hfiling] at hphase
      refine (h.cachePut ?_).enter trivial
      exact hphase
    · exact h

/-! ## What is returned -/

/-- In a world whose revisions are in order a step returns no record of a provider that is gone
exactly where it is in time. -/
theorem forall_returned_iff (h : w.Dated) {move : MetadataMove} :
    (∀ d ∈ w.returned move, d.current = some d.producedBy) ↔ w.InTime move := by
  cases move with
  | lookUp i now acquired =>
    dsimp only [returned, InTime]
    cases hphase : w.fetches i with
    | keyed ref registration revision seen =>
      dsimp only
      cases hfound : w.cached (recordKey ref registration revision) now with
      | none => simp
      | some e =>
        have hentry : w.cache (recordKey ref registration revision) = some e := by
          unfold cached at hfound
          split_ifs at hfound
          exact (Option.filter_eq_some_iff.mp hfound).1
        obtain ⟨-, hfiled⟩ := h.cache _ e hentry
        have hkeyed := h.fetches i
        rw [hphase] at hkeyed
        obtain ⟨-, -, hseen, hlast⟩ := hkeyed
        change (∀ d ∈ [(⟨e.producedBy, w.registry.getProvider ref.provider⟩ : CacheReturn)],
          d.current = some d.producedBy) ↔ _
        simp only [List.forall_mem_singleton, Option.mem_some_iff, forall_eq']
        constructor
        · intro hcurrent
          cases hlate : e.late with
          | true =>
            rw [hlate] at hfiled
            exact absurd hcurrent hfiled.2
          | false =>
            -- the producer was there when either of the two revisions was read
            rw [hlate] at hfiled
            have hsame := hlast _ hcurrent hfiled.1
            exact ⟨rfl, by simp [hsame], hcurrent.trans hsame.symm⟩
        · rintro ⟨hlate, hsome, hcurrent⟩
          rw [hlate] at hfiled
          obtain ⟨m, hm⟩ := Option.ne_none_iff_exists'.mp hsome
          rw [hm] at hcurrent
          rw [hcurrent, hfiled.2 m hcurrent (hseen m hm).1]
    | _ => simp
  | _ => simp [returned, InTime]

theorem dated_new (ttl : ℚ) : Dated { cacheTtl := ttl } where
  numbers := by
    intro key n hn
    cases hn
  cache := by
    intro key e he
    cases he
  fetches := fun _ => trivial

/-- **Replaced providers**: over any interleaving of fetches and changes of the registry, no record
that is returned from the cache was produced by a registration that is gone, exactly where every
lookup that returns one is in time. -/
theorem current_iff {ttl : ℚ} {moves : List MetadataMove} :
    (∀ d ∈ Run.trace step returned { cacheTtl := ttl } moves, d.current = some d.producedBy) ↔
      Run.Along step InTime { cacheTtl := ttl } moves := by
  rw [Run.forall_trace_iff]
  exact Run.along_congr_of_kept Dated (fun w _ hw => forall_returned_iff hw)
    (fun w move hw _ => dated_step hw move) (dated_new ttl)

/-- A provider that is registered again during the call of the old one, and a fetch after that. -/
def replacedMoves : List MetadataMove :=
  let ref : ProviderRef := { provider := of "demo", externalId := of "7" }
  [.register (of "demo") (of "plugin") none 1,
    .start 0 ref, .readRevision 0, .lookUp 0 0 true,
    .register (of "demo") (of "plugin") none 1,
    .jobEnds 0 (some { provider := of "demo", externalId := of "7" }), .file 0 5,
    .start 1 ref, .readRevision 1, .lookUp 1 10 true]

/-- The record of the first registration is returned while the second one is registered. -/
theorem replaced_during_call :
    Run.trace step returned {} replacedMoves =
      [⟨⟨1, of "plugin", 1⟩, some ⟨2, of "plugin", 1⟩⟩] := by
  decide +kernel

end MetadataWorld

end WolfNas
