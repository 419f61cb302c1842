import Mathlib.Data.List.Sort
import Mathlib.Data.Rat.Defs
import Mathlib.Algebra.Order.Ring.Rat
import WolfNas.Identity.Index

/-!
# The identity resolver and the target matcher

A group of results is compared with the names of the work that is searched for, which are kept
under its TMDB number, or looked up in the alias index, or at the provider.  What is identified is
matched by its number.

## Main definitions

* `ResolverEnv`, `IdentityState` — what the resolver calls, and what it keeps.
* `ResolverEnv.targetNames` — `_target_names`.
* `ResolverEnv.indexHit` — the hit of the alias index.
* `ResolverEnv.resolveLocal`, `ResolverEnv.resolveExternal` — the two ways to resolve a group.
* `matchTarget` — `TargetMatcher.match`.
-/

namespace WolfNas

open Text

/-- The provider's answer for a group; a hit has a TMDB number, or 0. -/
inductive ExternalAnswer
  | hit (number : ℕ) (info : Identified)
  | notFound (info : Identified)
  | error

/-- What the resolver calls besides its own code. -/
structure ResolverEnv extends IndexEnv where
  /-- `extract_edition_markers`. -/
  markers : List Text → List Text
  /-- A name without the signs of the sites that publish it. -/
  cleanSite : Text → Text
  /-- The flag `laboratory.identity_index`. -/
  identityIndex : Bool
  /-- The provider's details as a work; none where there are none. -/
  details : ℕ → MediaType → Option IdentityWork
  /-- The provider's names; none where it raises. -/
  allNames : ℕ → MediaType → Option (List Text)
  /-- `identify_groups` on one group; none where it raises. -/
  identifyGroup : ReleaseGroup → Option ExternalAnswer

/-- The names of a target, and the types of the targets and works that they were recorded for. -/
structure TargetNames where
  names : List Text
  recordedFor : List MediaType
  deriving DecidableEq

/-- What a group was resolved to, and the types of the works that what found it was recorded
for. -/
structure ResolvedGroup where
  hit : Bool
  info : Identified
  recordedFor : List MediaType
  deriving DecidableEq

/-- What the resolver keeps: the index, the target names under their numbers, and what it
identified. -/
structure IdentityState where
  index : AliasIndex := {}
  targetNamesCache : ℕ → Option TargetNames := fun _ => none
  resolved : List ResolvedGroup := []

/-- The TMDB number of a work that is searched for. -/
def SearchTarget.number (t : SearchTarget) : Option ℕ :=
  if t.media.tmdbId.toText.isDigit then some t.media.tmdbId.toText.toNat else none

/-- The type of a work, unknown where there is none. -/
def typeOrUnknown (t : Option MediaType) : MediaType := t.getD .unknown

namespace ResolverEnv

variable (env : ResolverEnv)

/-! ## Target names -/

/-- `get_all_names`, with the type of the work that the names are of: the index's work, or the
provider's. -/
def getAllNames (index : AliasIndex) (number : ℕ) (type : MediaType) :
    Option (List Text × MediaType) × AliasIndex :=
  let provided := (env.allNames number type).map (·, type)
  if !env.identityIndex then (provided, index)
  else
    match index.getWork .tmdb number with
    | some w => (if w.allNames ≠ [] then some (w.allNames, w.mediaType) else provided, index)
    | none =>
      match env.details number type with
      | none => (provided, index)
      | some w =>
        let w := { w with source := .tmdb, workId := number, mediaType := type }
        (if w.allNames ≠ [] then some (w.allNames, type) else provided, env.putWork index w)

/-- `_target_names`: they are kept under the number. -/
def targetNames (s : IdentityState) (t : SearchTarget) : TargetNames × IdentityState :=
  match t.number with
  | none => (⟨[], []⟩, s)
  | some number =>
    match s.targetNamesCache number with
    | some known => (known, s)
    | none =>
      let type := t.media.type.getD .tv
      let (extra, index) := env.getAllNames s.index number type
      let known : TargetNames :=
        { names := (extra.elim [] fun e => e.1.filter (· ≠ [])).foldl ReleaseEnv.addName
            (ReleaseEnv.baseNames t)
          recordedFor := typeOrUnknown t.media.type :: extra.elim [] fun e => [e.2] }
      (known, { s with
        index := index
        targetNamesCache := fun n => if n = number then some known else s.targetNamesCache n })

/-- `_strict`. -/
def strict (name : Text) (names : List Text) : Bool :=
  let n := env.normalizeText (env.cleanSite name)
  n ≠ [] && names.any fun t => t ≠ [] && n = env.normalizeText t

/-! ## The hit of the index -/

/-- `_KIND_WEIGHT`. -/
def kindWeight : AliasKind → ℚ
  | .official => 1
  | .translation => 9 / 10
  | .romanization => 85 / 100
  | .fan => 1 / 2

/-- `_name_conf`. -/
def nameConf (g : ReleaseGroup) (name : Text) : ℚ :=
  if name ≠ [] ∧ some name = g.cnName then 9 / 10 else 3 / 4

/-- `_year_factor`. -/
def yearFactor (g : ReleaseGroup) (w : IdentityWork) : ℚ :=
  let gy := (orEmpty g.year).take 4
  let wy := (w.year.elim [] fun y => if y = 0 then [] else ofNat y).take 4
  if gy ≠ [] ∧ wy ≠ [] then (if gy = wy then 1 else 3 / 10) else 7 / 10

/-- `_edition_factor`. -/
def editionFactor (markers : List Text) (w : IdentityWork) : ℚ :=
  if markers = [] then 1
  else
    let normal := fun s => (env.normalizeText s).filter (· ≠ ' ')
    let hits := markers.countP fun m => w.allNames.any fun n => normal m <:+: normal n
    2 / 5 + 4 / 5 * (hits / markers.length)

/-- A work that names of a group are aliases of, with its score and the rows that found it. -/
structure Scored where
  score : ℚ
  work : IdentityWork
  rows : List (Text × AliasRow)
  deriving DecidableEq

/-- The rows of the index under the names of a group. -/
def rowsOf (index : AliasIndex) (g : ReleaseGroup) : List (Text × AliasRow) :=
  g.names.flatMap fun name => (env.lookup index name).map (name, ·)

/-- `_score`, the best first. -/
def scored (index : AliasIndex) (g : ReleaseGroup) : List Scored :=
  let rows := env.rowsOf index g
  let works := (rows.map fun row => (row.2.source, row.2.workId)).eraseDups.filterMap fun ref =>
    (index.getWork ref.1 ref.2).map fun w =>
      let found := rows.filter fun row => row.2.IsOf ref.1 ref.2
      let base := (found.map fun row => nameConf g row.1 * kindWeight row.2.kind).sum
      { score := base * yearFactor g w * env.editionFactor (env.markers (g.title :: g.names)) w
        work := w
        rows := found : Scored }
  works.insertionSort fun a b => b.score ≤ a.score

/-- The best work, where it passes (`_passes`). -/
def indexHit (index : AliasIndex) (g : ReleaseGroup) : Option Scored :=
  match env.scored index g with
  | [] => none
  | [best] => if best.score < 1 / 2 then none else some best
  | best :: second :: _ =>
    if best.score < 1 / 2 ∨ best.score < second.score * (13 / 10) then none else some best

/-- The types that a hit of the index was recorded for: those of its rows, and the work's own. -/
def Scored.recordedFor (h : Scored) : List MediaType :=
  h.work.mediaType :: h.rows.flatMap fun row => row.2.recordedFor

/-- `_build_media_info` of a work of the index. -/
def workInfo (g : ReleaseGroup) (w : IdentityWork) : Identified :=
  let number := if w.source = .tmdb then w.workId else 0
  { ReleaseEnv.groupInfo g with
    tmdbId := .int number
    year := if orEmpty g.year ≠ [] then g.year
      else w.year.bind fun y => if y = 0 then none else some (ofNat y)
    title := w.officialTitles.head?
    originalTitle := w.officialTitles[1]?
    providerData := number ≠ 0 }

/-! ## Resolving a group -/

/-- The target names that the names of a group are compared with. -/
def compared (s : IdentityState) (g : ReleaseGroup) (t : SearchTarget) : Option TargetNames :=
  let known := (env.targetNames s t).1
  if ReleaseEnv.guardsPass g t ∧ known.names ≠ [] ∧ g.names ≠ [] then some known else none

/-- The group is decided by its target: it is it, or it is not; none where the index is asked. -/
def byTarget (s : IdentityState) (g : ReleaseGroup) (t : SearchTarget) : Option ResolvedGroup :=
  if !ReleaseEnv.guardsPass g t then some ⟨false, ReleaseEnv.groupInfo g, []⟩
  else
    match env.compared s g t with
    | none => none
    | some known =>
      if g.names.all (env.strict · known.names) then
        some ⟨true, ReleaseEnv.directInfo g t, known.recordedFor⟩
      else if g.names.any (env.strict · known.names) then none
      else some ⟨false, ReleaseEnv.groupInfo g, []⟩

/-- What is kept when the target names have been asked for. -/
def asked (s : IdentityState) (t : Option SearchTarget) : IdentityState :=
  t.elim s fun t => (env.targetNames s t).2

/-- The hit of the index that a group is resolved with. -/
def takenHit (s : IdentityState) (g : ReleaseGroup) (t : Option SearchTarget) : Option Scored :=
  if (t.bind (env.byTarget s g)).isSome then none else env.indexHit (env.asked s t).index g

/-- `resolve_local`. -/
def resolveLocal (s : IdentityState) (g : ReleaseGroup) (t : Option SearchTarget) :
    Option ResolvedGroup × IdentityState :=
  let s' := if t.any fun t => !ReleaseEnv.guardsPass g t then s else env.asked s t
  match t.bind (env.byTarget s g) with
  | some r => (some r, s')
  | none =>
    match env.takenHit s g t with
    | none => (none, s')
    | some h =>
      (some ⟨true, workInfo g h.work, h.recordedFor⟩,
        { s' with
          index := h.rows.foldl
            (fun index row => env.recordHit index row.1 h.work.source h.work.workId) s'.index })

/-- `_learn_work`. -/
def learnWork (index : AliasIndex) (number : ℕ) (info : Identified) : AliasIndex :=
  if (index.getWork .tmdb number).isSome then index
  else
    let year : Text := (orEmpty info.year).take 4
    env.putWork index
      { source := .tmdb
        workId := number
        mediaType := info.type.getD .tv
        year := if year.isDigit then some year.toNat else none
        officialTitles := [orEmpty info.title, orEmpty info.originalTitle].filter (· ≠ [])
        aliases := ([orEmpty info.cnName, orEmpty info.enName].filter (· ≠ [])).map
          (WorkAlias.mk · .fan) }

/-- A group that is found to be the target is not it where one of its names is none of the
target's. -/
def distinguished (s : IdentityState) (g : ReleaseGroup) (number : ℕ) (t : SearchTarget) : Bool :=
  t.media.tmdbId = .int number ∧ g.names.any fun n => !env.strict n (env.targetNames s t).1.names

/-- A name of a group that the provider found is recorded. -/
def addFan (number : ℕ) (info : Identified) (index : AliasIndex) (name : Text) : AliasIndex :=
  env.addAlias index name
    { source := .tmdb, workId := number, kind := .fan, recordedFor := [typeOrUnknown info.type] }

/-- `resolve_external_batch`, for one of its groups. -/
def resolveExternal (s : IdentityState) (g : ReleaseGroup) (t : Option SearchTarget) :
    Option ResolvedGroup × IdentityState :=
  match env.identifyGroup { g with names := g.names.take 3 } with
  | none => (none, s)
  | some answer =>
    let s' := env.asked s t
    match answer with
    | .error => (none, s')
    | .notFound info => (some ⟨false, info, []⟩, s')
    | .hit number info =>
      if number = 0 then (some ⟨true, { info with tmdbId := .int 0 }, []⟩, s')
      else if t.any (env.distinguished s g number) then
        (some ⟨false, ReleaseEnv.groupInfo g, []⟩, s')
      else
        (some ⟨true, { info with tmdbId := .int number }, [typeOrUnknown info.type]⟩,
          { s' with
            index := g.names.foldl (env.addFan number info) (env.learnWork s'.index number info) })

end ResolverEnv

/-! ## Matching -/

/-- `TargetMatcher.match`. -/
def matchTarget (info : Identified) (t : SearchTarget) : Bool :=
  if !t.media.tmdbId.truthy then true
  else info.tmdbId.truthy && info.tmdbId.toText = t.media.tmdbId.toText

end WolfNas
