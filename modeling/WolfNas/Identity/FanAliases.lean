import Mathlib.Tactic.Linarith
import Mathlib.Tactic.NormNum
import Mathlib.Tactic.Ring
import WolfNas.Identity.Namespaces

/-!
# Fans' aliases as evidence

A fan's alias is to be evidence only, and not to identify a work alone.  In the score of a work a
fan's alias has half the weight of a title, and the weights of several aliases add up.

## Main definitions

* `ResolverEnv.rowsOfWork` — the rows that a work is found by.
* `ResolverEnv.fanCount` — what the fans' aliases of a group weigh, in fortieths.
* `ResolverEnv.FansNeverPass` — fans' aliases alone are not accepted, and do not reach the
  threshold.

## Main results

* `ResolverEnv.score_of_fans` — the score of a work that only fans' aliases found.
* `ResolverEnv.fansNeverPass_iff` — where fans' aliases alone never pass.
-/

namespace WolfNas

open Text

namespace ResolverEnv

variable (env : ResolverEnv) (index : AliasIndex) (g : ReleaseGroup)

/-! ## Scores -/

/-- The rows under the names of a group that are of a work. -/
def rowsOfWork (source : WorkSource) (workId : ℕ) : List (Text × AliasRow) :=
  (env.rowsOf index g).filter fun row => row.2.IsOf source workId

/-- The threshold `_HIT_SCORE`. -/
def hitScore : ℚ := 1 / 2

/-- The name of the row is the Chinese name of the group. -/
def underCnName (row : Text × AliasRow) : Bool := row.1 ≠ [] ∧ some row.1 = g.cnName

/-- What fans' aliases weigh, in fortieths: 18 under the Chinese name, 15 under any other. -/
def fanCount (rows : List (Text × AliasRow)) : ℕ :=
  18 * rows.countP (underCnName g) + 15 * rows.countP fun row => !underCnName g row

/-- Only fans' aliases found the work. -/
def ByFans (rows : List (Text × AliasRow)) : Prop := ∀ row ∈ rows, row.2.kind = .fan

/-- The work that the rows found, with its score. -/
def scoreOf (w : IdentityWork) (rows : List (Text × AliasRow)) : Scored where
  score := (rows.map fun row => nameConf g row.1 * kindWeight row.2.kind).sum * yearFactor g w *
    env.editionFactor (env.markers (g.title :: g.names)) w
  work := w
  rows := rows

/-- The index accepts no work that only fans' aliases found, and no such work reaches the
threshold. -/
structure FansNeverPass : Prop where
  accepted : ∀ h, env.indexHit index g = some h → ∃ row ∈ h.rows, row.2.kind ≠ .fan
  below : ∀ sc ∈ env.scored index g, ByFans sc.rows → sc.score < hitScore

variable {env index g}

/-- What is scored. -/
theorem mem_scored_iff {sc : Scored} : sc ∈ env.scored index g ↔
    ∃ source workId w, (∃ row ∈ env.rowsOf index g, row.2.IsOf source workId) ∧
      index.getWork source workId = some w ∧
      sc = env.scoreOf g w (env.rowsOfWork index g source workId) := by
  simp only [scored, List.mem_insertionSort, List.mem_filterMap, List.mem_eraseDups, List.mem_map,
    Option.map_eq_some_iff]
  constructor
  · rintro ⟨⟨source, workId⟩, ⟨row, hrow, heq⟩, w, hw, rfl⟩
    obtain ⟨rfl, rfl⟩ := Prod.mk.inj heq
    exact ⟨_, _, w, ⟨row, hrow, rfl, rfl⟩, hw, rfl⟩
  · rintro ⟨source, workId, w, ⟨row, hrow, hsource, hid⟩, hw, rfl⟩
    exact ⟨(source, workId), ⟨row, hrow, Prod.ext hsource hid⟩, w, hw, rfl⟩

/-- What is accepted was scored, and reaches the threshold. -/
theorem mem_scored_of_indexHit {h : Scored} (hit : env.indexHit index g = some h) :
    h ∈ env.scored index g ∧ hitScore ≤ h.score := by
  rw [indexHit] at hit
  cases hscored : env.scored index g with
  | nil =>
    rw [hscored] at hit
    cases hit
  | cons best rest =>
    rw [hscored] at hit
    cases rest with
    | nil =>
      dsimp only at hit
      split_ifs at hit with hlow
      cases hit
      exact ⟨List.mem_cons_self, not_lt.mp hlow⟩
    | cons second rest =>
      dsimp only at hit
      split_ifs at hit with hlow
      cases hit
      exact ⟨List.mem_cons_self, not_lt.mp fun h => hlow (.inl h)⟩

theorem fanCount_cons (row : Text × AliasRow) (rows : List (Text × AliasRow)) :
    fanCount g (row :: rows) = (if underCnName g row then 18 else 15) + fanCount g rows := by
  rw [fanCount, fanCount, List.countP_cons, List.countP_cons]
  cases underCnName g row
  · simp only [Bool.false_eq_true, if_false, Bool.not_false, if_true]
    omega
  · simp only [if_true, Bool.not_true, Bool.false_eq_true, if_false]
    omega

/-- What one fan's alias adds to a score. -/
theorem nameConf_fan {row : Text × AliasRow} (h : row.2.kind = .fan) :
    nameConf g row.1 * kindWeight row.2.kind = (if underCnName g row then 18 else 15 : ℕ) / 40 := by
  rw [h, nameConf, underCnName, kindWeight]
  by_cases hname : row.1 ≠ [] ∧ some row.1 = g.cnName
  · rw [if_pos hname, if_pos (decide_eq_true hname)]
    norm_num
  · rw [if_neg hname, if_neg (by simpa using hname)]
    norm_num

theorem sum_of_fans {rows : List (Text × AliasRow)} (h : ByFans rows) :
    (rows.map fun row => nameConf g row.1 * kindWeight row.2.kind).sum =
      (fanCount g rows : ℚ) / 40 := by
  induction rows with
  | nil => simp [fanCount]
  | cons row rows ih =>
    obtain ⟨hrow, hrows⟩ := List.forall_mem_cons.mp h
    rw [List.map_cons, List.sum_cons, ih hrows, nameConf_fan hrow, fanCount_cons]
    push_cast
    ring

/-- The score of a work that only fans' aliases found. -/
theorem score_of_fans {w : IdentityWork} {rows : List (Text × AliasRow)} (h : ByFans rows) :
    (env.scoreOf g w rows).score = fanCount g rows / 40 * yearFactor g w *
      env.editionFactor (env.markers (g.title :: g.names)) w := by
  rw [← sum_of_fans h]
  rfl

/-! ## Fans' aliases alone -/

/-- Fans' aliases alone never pass exactly where the weight of those that found a work alone stays
below 20 fortieths, its factors for the year and the edition included. -/
theorem fansNeverPass_iff (env : ResolverEnv) (index : AliasIndex) (g : ReleaseGroup) :
    env.FansNeverPass index g ↔
      ∀ source workId w, index.getWork source workId = some w →
        ByFans (env.rowsOfWork index g source workId) →
        fanCount g (env.rowsOfWork index g source workId) * yearFactor g w *
          env.editionFactor (env.markers (g.title :: g.names)) w < 20 := by
  constructor
  · intro h source workId w hw hfans
    by_cases hfound : ∃ row ∈ env.rowsOf index g, row.2.IsOf source workId
    · have hbelow := h.below _ (mem_scored_iff.mpr ⟨source, workId, w, hfound, hw, rfl⟩) hfans
      rw [score_of_fans hfans, hitScore] at hbelow
      linarith
    · have hnone : env.rowsOfWork index g source workId = [] :=
        List.filter_eq_nil_iff.mpr fun row hrow his => hfound ⟨row, hrow, by simpa using his⟩
      simp [hnone, fanCount]
  · intro h
    have hbelow : ∀ sc ∈ env.scored index g, ByFans sc.rows → sc.score < hitScore := by
      intro sc hsc hfans
      obtain ⟨source, workId, w, -, hw, rfl⟩ := mem_scored_iff.mp hsc
      have hweight := h source workId w hw hfans
      have hscore := @score_of_fans env g w _ hfans
      rw [hitScore]
      refine hscore.trans_lt ?_
      change (fanCount g (env.rowsOfWork index g source workId) : ℚ) / 40 * _ * _ < 1 / 2
      linarith
    refine ⟨fun hit hhit => ?_, hbelow⟩
    obtain ⟨hmem, hreach⟩ := mem_scored_of_indexHit hhit
    by_contra hnone
    push Not at hnone
    exact absurd (hbelow hit hmem hnone) (not_lt.mpr hreach)

/-- Two fans' aliases of the film's names are enough. -/
def fanGroup : ReleaseGroup :=
  { Identities.episodesNamed (of "Frieren") with
    names := [of "Frieren", of "Sousou no Frieren"]
    year := some (of "2023") }

/-- A show whose two names fans recorded. -/
def fanIndex : AliasIndex :=
  let fan : AliasRow := { source := .tmdb, workId := 209867, kind := .fan, recordedFor := [.tv] }
  let w : IdentityWork := { source := .tmdb, workId := 209867, year := some 2023 }
  let index := Identities.plainResolver.putWork {} w
  Identities.plainResolver.addAlias
    (Identities.plainResolver.addAlias index (of "Frieren") fan) (of "Sousou no Frieren") fan

/-- It is accepted by them alone. -/
theorem fans_pass_frieren : ¬Identities.plainResolver.FansNeverPass fanIndex fanGroup := by
  intro h
  have hhit : (Identities.plainResolver.indexHit fanIndex fanGroup).isSome = true := by
    decide +kernel
  obtain ⟨hit, hhit⟩ := Option.isSome_iff_exists.mp hhit
  obtain ⟨row, hrow, hkind⟩ := h.accepted hit hhit
  have hrows : ∀ hit ∈ Identities.plainResolver.indexHit fanIndex fanGroup,
      ∀ row ∈ hit.rows, row.2.kind = .fan := by
    decide +kernel
  exact hkind (hrows hit hhit row hrow)

end ResolverEnv

end WolfNas
