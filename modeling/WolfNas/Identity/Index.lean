import WolfNas.Search.Identify

/-!
# The alias index

Names of works, each under its normal form, and the works themselves, each under its source and
number.  TMDB numbers movies and shows apart, so that a number stands for a movie and for a show.

## Main definitions

* `IdentityWork`, `AliasRow`, `AliasIndex` — a work, a row under a name, the index.
* `IndexEnv.addAlias`, `IndexEnv.recordHit`, `IndexEnv.invalidate`, `IndexEnv.invalidateMapping`
  — the rows under a name.
* `IndexEnv.putWork`, `AliasIndex.getWork` — the works.
-/

namespace WolfNas

open Text

/-! ## Works -/

/-- The kinds of aliases. -/
inductive AliasKind
  | official
  | translation
  | romanization
  | fan
  deriving DecidableEq

/-- Where a work is from. -/
inductive WorkSource
  | tmdb
  | bgm
  deriving DecidableEq

/-- `Alias`. -/
structure WorkAlias where
  text : Text
  kind : AliasKind := .translation
  deriving DecidableEq

/-- `Work`. -/
structure IdentityWork where
  source : WorkSource
  workId : ℕ
  mediaType : MediaType := .tv
  year : Option ℕ := none
  officialTitles : List Text := []
  aliases : List WorkAlias := []
  deriving DecidableEq

/-- `all_name_strings`. -/
def IdentityWork.allNames (w : IdentityWork) : List Text :=
  ((w.officialTitles ++ w.aliases.map WorkAlias.text).filter (· ≠ [])).foldl ReleaseEnv.addName []

/-! ## The index -/

/-- A row of the index; `recordedFor` are the types of the works that it was recorded for, which
the index does not keep. -/
structure AliasRow where
  source : WorkSource
  workId : ℕ
  kind : AliasKind
  hits : ℕ := 1
  recordedFor : List MediaType
  deriving DecidableEq

/-- The two caches of `AliasIndex`. -/
structure AliasIndex where
  aliasCache : Text → List AliasRow := fun _ => []
  workCache : WorkSource → ℕ → Option IdentityWork := fun _ _ => none

/-- `get_work`. -/
def AliasIndex.getWork (index : AliasIndex) (source : WorkSource) (workId : ℕ) :
    Option IdentityWork :=
  index.workCache source workId

/-- What is left of the caches when some entries expired or were evicted. -/
def AliasIndex.without (index : AliasIndex) (names : Text → Bool) (works : WorkSource → ℕ → Bool) :
    AliasIndex where
  aliasCache key := if names key then [] else index.aliasCache key
  workCache source workId := if works source workId then none else index.workCache source workId

namespace AliasRow

/-- `FAN_PROMOTE_HITS`. -/
def fanPromoteHits : ℕ := 2

/-- The row is of this work. -/
def IsOf (r : AliasRow) (source : WorkSource) (workId : ℕ) : Prop :=
  r.source = source ∧ r.workId = workId

instance (r : AliasRow) (source : WorkSource) (workId : ℕ) : Decidable (r.IsOf source workId) := by
  unfold IsOf
  infer_instance

/-- One more hit; a fan's alias with enough of them is a translation. -/
def counted (r : AliasRow) : AliasRow :=
  { r with
    hits := r.hits + 1
    kind := if fanPromoteHits ≤ r.hits + 1 then .translation else r.kind }

/-- The row is recorded again: a fan's alias counts a hit, or takes the new kind. -/
def again (r new : AliasRow) : AliasRow :=
  let r' := if r.kind ≠ .fan then r else if new.kind = .fan then r.counted
    else { r with kind := new.kind }
  { r' with recordedFor := r.recordedFor ++ new.recordedFor }

end AliasRow

/-- A row is added, or recorded again where the work has one. -/
def addRow (new : AliasRow) : List AliasRow → List AliasRow
  | [] => [new]
  | r :: rows => if r.IsOf new.source new.workId then r.again new :: rows else r :: addRow new rows

/-- What the index calls besides its own code. -/
structure IndexEnv where
  /-- `StringUtils.handler_special_chars`. -/
  specialChars : Text → Text
  /-- `StringUtils.md5_hash`. -/
  md5 : Text → Text

namespace IndexEnv

variable (env : IndexEnv)

/-- `normalize_text`. -/
def normalizeText (s : Text) : Text := (upper (env.specialChars s)).strip

/-- `alias_key`. -/
def aliasKey (s : Text) : Text := of "identity:v1:alias:" ++ env.md5 (env.normalizeText s)

/-- The rows under a name become others. -/
def setRows (index : AliasIndex) (name : Text) (f : List AliasRow → List AliasRow) : AliasIndex :=
  if name.strip = [] then index
  else { index with aliasCache := fun key =>
    if key = env.aliasKey name then f (index.aliasCache key) else index.aliasCache key }

/-- `lookup`. -/
def lookup (index : AliasIndex) (name : Text) : List AliasRow :=
  if name.strip = [] then [] else index.aliasCache (env.aliasKey name)

/-- `add_alias`. -/
def addAlias (index : AliasIndex) (name : Text) (new : AliasRow) : AliasIndex :=
  if new.workId = 0 then index else env.setRows index name (addRow new)

/-- `record_hit`. -/
def recordHit (index : AliasIndex) (name : Text) (source : WorkSource) (workId : ℕ) : AliasIndex :=
  env.setRows index name fun rows => rows.map fun r =>
    if r.IsOf source workId ∧ r.kind = .fan then r.counted else r

/-- `invalidate`. -/
def invalidate (index : AliasIndex) (name : Text) : AliasIndex :=
  env.setRows index name fun _ => []

/-- `invalidate_mapping`. -/
def invalidateMapping (index : AliasIndex) (name : Text) (source : WorkSource) (workId : ℕ) :
    AliasIndex :=
  env.setRows index name fun rows => rows.filter fun r => ¬r.IsOf source workId

/-- A name of a work is recorded. -/
def addNameOf (w : IdentityWork) (index : AliasIndex) (a : WorkAlias) : AliasIndex :=
  env.addAlias index a.text
    { source := w.source, workId := w.workId, kind := a.kind, recordedFor := [w.mediaType] }

/-- `put_work`: the work, its official titles, its aliases. -/
def putWork (index : AliasIndex) (w : IdentityWork) : AliasIndex :=
  if w.workId = 0 then index
  else
    (w.officialTitles.map (WorkAlias.mk · .official) ++ w.aliases).foldl (env.addNameOf w)
      { index with workCache := fun source workId =>
          if source = w.source ∧ workId = w.workId then some w
          else index.workCache source workId }

end IndexEnv

end WolfNas
