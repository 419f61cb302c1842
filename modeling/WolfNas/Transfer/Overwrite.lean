import WolfNas.Transfer.Effect

/-!
# Overwriting a library file

`transfer` removes the old file before it writes the new one, so whatever fails after that
leaves neither.  Nothing is lost where the removal itself fails, or where everything after it
goes through and the old file was not the last copy of the source.

## Main definitions

* `JobSafe` — the condition on one file put into place.
* `Keeps` — a job that fails leaves the old file in place, and no content is lost but the
  replaced one.
* `TransferSafe` — the condition on a whole transfer, step by step.

## Main results

* `runJob_keeps` — a safe job keeps.
* `transfer_keeps` — so does every run of `transfer` whose steps are safe.
-/

namespace WolfNas

namespace EngineEnv

variable (env : EngineEnv) (args : Args)

/-- What a job comes to, once the old file is out of the way. -/
def jobEffect (s : Store) (j : Job) : Effect :=
  env.effect (cleared args s j) args.operation args.srcBackend args.dstBackend j.src j.dst

/-- The job fails. -/
def jobRaises (s : Store) (j : Job) : Bool :=
  replaces args s j && env.faultOf args j == .removeOld ||
    (env.jobEffect args s j).raises (env.faultOf args j)

/-- The condition under which a job loses nothing. -/
inductive JobSafe (s : Store) (j : Job) : Prop
  /-- The old file cannot be removed. -/
  | stays (hold : replaces args s j) (hfault : env.faultOf args j = .removeOld)
  /-- Where the old file is removed, the rest goes through, and the source keeps its
  content; and what the job writes over is held elsewhere. -/
  | goes (through : replaces args s j → env.jobRaises args s j = false)
      (kept : replaces args s j → ∀ c, s.read (args.srcBackend.loc j.src) = some c →
        (cleared args s j).Holds c)
      (spared : (env.jobEffect args s j).Spared (cleared args s j) (args.dstBackend.loc j.dst)
        (env.faultOf args j))

/-- The job went through, and the content is that of the file it replaced, which is not the
content of the source. -/
def Retires (r : JobRun) (c : Content) : Prop :=
  r.outcome.1 = .ok () ∧ r.before.read (args.srcBackend.loc r.job.src) ≠ some c ∧
    ∃ old, r.job.old = some old ∧ r.before.read (args.dstBackend.loc old) = some c

/-- A job that fails leaves the old file in place, and no content is lost but a replaced
one. -/
structure Keeps (r : JobRun) : Prop where
  inPlace : ∀ e old, r.outcome.1 = .error e → r.job.old = some old →
    r.before.isThere (args.dstBackend.loc old) →
    r.before.InPlace r.outcome.2 (args.dstBackend.loc old)
  holds : ∀ c, r.before.Holds c → r.outcome.2.Holds c ∨ Retires args r c

/-! ## One job -/

variable {env args} {s : Store} {j : Job}

theorem replaces_of_old {old : Text} (hold : j.old = some old) :
    replaces args s j = s.isThere (args.dstBackend.loc old) := by
  rw [replaces, hold]

theorem cleared_of_replaces {old : Text} (hold : j.old = some old)
    (hthere : s.isThere (args.dstBackend.loc old)) :
    cleared args s j = s.unlink (args.dstBackend.loc old) := by
  rw [cleared, hold]
  exact if_pos hthere

theorem cleared_of_not_replaces (h : ¬replaces args s j) : cleared args s j = s := by
  rw [cleared]
  rw [replaces] at h
  split at h
  · rename_i old hold
    exact if_neg h
  · rfl

/-- Once the old file is out of the way, a job does what its effect says. -/
theorem runJob_eq_apply (h : ¬(replaces args s j ∧ env.faultOf args j = .removeOld)) :
    env.runJob args s j = (env.jobEffect args s j).apply (cleared args s j)
      (args.srcBackend.loc j.src) (args.dstBackend.loc j.dst) (env.faultOf args j) := by
  rw [runJob, if_neg (by simpa using h)]
  exact env.execute_eq_apply ..

theorem jobEffect_fits : (env.jobEffect args s j).Fits (cleared args s j)
    (args.srcBackend.loc j.src) (args.dstBackend.loc j.dst) :=
  env.effect_fits ..

/-- A job goes through exactly where it does not fail. -/
theorem runJob_ok_iff : (env.runJob args s j).1 = .ok () ↔ env.jobRaises args s j = false := by
  by_cases h : replaces args s j ∧ env.faultOf args j = .removeOld
  · simp [runJob, jobRaises, h.1, h.2]
  · rw [runJob_eq_apply h, Effect.apply_ok_iff jobEffect_fits, jobRaises]
    have : (replaces args s j && env.faultOf args j == .removeOld) = false := by simpa using h
    rw [this, Bool.false_or]

/-- **A safe job keeps**: where it fails the old file is in place, and it loses no content
but the replaced one. -/
theorem runJob_keeps (h : env.JobSafe args s j) : Keeps args ⟨s, j, env.runJob args s j⟩ := by
  by_cases hstays : replaces args s j ∧ env.faultOf args j = .removeOld
  · have hrun : env.runJob args s j = (.error .io, s) := by
      rw [runJob, if_pos (by simpa using hstays)]
    rw [hrun]
    exact ⟨fun _ _ _ _ _ => FileStore.inPlace_refl _, fun c hc => Or.inl hc⟩
  · cases h with
    | stays hold hfault => exact absurd ⟨hold, hfault⟩ hstays
    | goes through kept spared =>
      constructor
      · intro e old herror hold hthere
        have hok := runJob_ok_iff.mpr (through ((replaces_of_old hold).trans hthere))
        exact absurd (hok.symm.trans herror) (by simp)
      · intro c hc
        have hafter : (cleared args s j).Holds c → (env.runJob args s j).2.Holds c := by
          intro hc
          rw [runJob_eq_apply hstays]
          exact Effect.holds_apply jobEffect_fits spared hc
        by_cases hreplaces : replaces args s j
        · obtain ⟨old, hold⟩ : ∃ old, j.old = some old := by
            rw [replaces] at hreplaces
            split at hreplaces
            · exact ⟨_, ‹_›⟩
            · cases hreplaces
          have hthere : s.isThere (args.dstBackend.loc old) :=
            (replaces_of_old hold).symm.trans hreplaces
          rcases FileStore.holds_unlink_or_read (l := args.dstBackend.loc old) hc with hc | hread
          · exact Or.inl (hafter (by rwa [cleared_of_replaces hold hthere]))
          · -- Only the old file had this content.
            by_cases hsrc : s.read (args.srcBackend.loc j.src) = some c
            · exact Or.inl (hafter (kept hreplaces c hsrc))
            · exact Or.inr ⟨runJob_ok_iff.mpr (through hreplaces), hsrc, old, hold, hread⟩
        · exact Or.inl (hafter (by rwa [cleared_of_not_replaces hreplaces]))

/-! ## A whole transfer -/

section Transfer

variable (env args)

/-- The transfer removes an old file to begin with. -/
def overwrites (s : Store) : Bool := replaces args s (mainJob args)

/-- A subtitle can be looked at where an old file was removed, and its job is safe. -/
def SubtitleSafe (s : Store) (p : Progress) (sub : Text × List Text) : Prop :=
  p.error = none →
    (overwrites args s → (p.store.read (args.srcBackend.loc sub.1)).isSome) ∧
    ∀ c name, p.store.read (args.srcBackend.loc sub.1) = some c →
      subtitleTarget args p.store c.size sub.2 = some name →
      env.JobSafe args p.store ⟨sub.1, name, none⟩

/-- The job of an audio track is safe, and goes through where an old file was removed. -/
def TrackSafe (s : Store) (p : Progress) (track : Text × Text) : Prop :=
  p.error = none → ¬(p.store.isThere (args.dstBackend.loc track.2) ∧ !args.overFlag) →
    env.JobSafe args p.store ⟨track.1, track.2, some track.2⟩ ∧
    (overwrites args s → env.jobRaises args p.store ⟨track.1, track.2, some track.2⟩ = false)

/-- The transfer once its media file is in place. -/
def mainDone (s : Store) : Progress := env.advance args false ⟨s, none, []⟩ (mainJob args)

/-- The transfer once its subtitles are in place. -/
def subtitlesDone (s : Store) : Progress :=
  let p := env.mainDone args s
  (env.subtitles p.store (args.srcBackend.loc args.src) (args.dstBackend.loc args.dst)).foldl
    (env.subtitleStep args) p

/-- The condition under which a transfer loses nothing. -/
structure TransferSafe (s : Store) : Prop where
  main : env.JobSafe args s (mainJob args)
  /-- The blacklist can be written where an old file was removed. -/
  blacklist : env.jobRaises args s (mainJob args) = false → overwrites args s →
    env.blacklistFails = false
  subtitles : env.jobRaises args s (mainJob args) = false → env.blacklistFails = false →
    Run.Along (env.subtitleStep args) (env.SubtitleSafe args s) (env.mainDone args s)
      (env.subtitles (env.mainDone args s).store (args.srcBackend.loc args.src)
        (args.dstBackend.loc args.dst))
  tracks : env.jobRaises args s (mainJob args) = false → env.blacklistFails = false →
    Run.Along (env.trackStep args) (env.TrackSafe args s) (env.subtitlesDone args s)
      (env.tracks (env.subtitlesDone args s).store (args.srcBackend.loc args.src)
        (args.dstBackend.loc args.dst))

/-- What holds at every step of a safe transfer from `s`. -/
structure TransferKeeps (s : Store) (p : Progress) : Prop where
  jobs : ∀ r ∈ p.jobs, Keeps args r
  holds : ∀ c, s.Holds c → p.store.Holds c ∨ ∃ r ∈ p.jobs, Retires args r c

variable {env args} {p : Progress}

/-- A safe job keeps what holds at every step. -/
private theorem keeps_advance {swallow : Bool} (h : TransferKeeps args s p)
    (hsafe : env.JobSafe args p.store j) :
    TransferKeeps args s (env.advance args swallow p j) := by
  have hkeeps := runJob_keeps hsafe
  constructor
  · intro r hr
    rcases List.mem_append.mp hr with hr | hr
    · exact h.jobs r hr
    · rw [List.mem_singleton.mp hr]
      exact hkeeps
  · intro c hc
    rcases h.holds c hc with hc | ⟨r, hr, hretires⟩
    · rcases hkeeps.holds c hc with hc | hretires
      · exact Or.inl hc
      · exact Or.inr ⟨_, List.mem_append_right _ (List.mem_singleton.mpr rfl), hretires⟩
    · exact Or.inr ⟨r, List.mem_append_left _ hr, hretires⟩

/-- The error after a job whose failure counts. -/
private theorem error_advance :
    (env.advance args false p j).error = none ↔ env.jobRaises args p.store j = false := by
  rw [← runJob_ok_iff, advance]
  cases (env.runJob args p.store j).1 <;> simp [errorOf]

private theorem keeps_subtitleStep {sub : Text × List Text} (h : TransferKeeps args s p)
    (hsafe : env.SubtitleSafe args s p sub) :
    TransferKeeps args s (env.subtitleStep args p sub) := by
  rw [subtitleStep]
  split_ifs with herror
  · exact h
  · have herror : p.error = none := by simpa using herror
    split
    · exact ⟨h.jobs, h.holds⟩
    · rename_i c hread
      split
      · exact h
      · rename_i name hname
        exact keeps_advance h ((hsafe herror).2 c name hread hname)

private theorem error_subtitleStep {sub : Text × List Text} (herror : p.error = none)
    (hread : (p.store.read (args.srcBackend.loc sub.1)).isSome) :
    (env.subtitleStep args p sub).error = none := by
  rw [subtitleStep, herror]
  simp only [Option.isSome_none, Bool.false_eq_true, if_false]
  split
  · rename_i hnone
    rw [hnone] at hread
    cases hread
  · split
    · exact herror
    · rfl

private theorem keeps_trackStep {track : Text × Text} (h : TransferKeeps args s p)
    (hsafe : env.TrackSafe args s p track) :
    TransferKeeps args s (env.trackStep args p track) := by
  rw [trackStep]
  split_ifs with hskip
  · exact h
  · rw [not_or] at hskip
    exact keeps_advance h (hsafe (by simpa using hskip.1) hskip.2).1

private theorem error_trackStep {track : Text × Text} (herror : p.error = none)
    (hoverwrites : overwrites args s) (hsafe : env.TrackSafe args s p track) :
    (env.trackStep args p track).error = none := by
  rw [trackStep]
  split_ifs with hskip
  · exact herror
  · rw [not_or] at hskip
    exact error_advance.mpr ((hsafe herror hskip.2).2 hoverwrites)

/-- Everything after the media file keeps what holds at every step, and raises nothing where
an old file was removed. -/
private theorem afterMain_keeps (hsafe : env.TransferSafe args s)
    (hmain : env.jobRaises args s (mainJob args) = false)
    (h : TransferKeeps args s (env.mainDone args s)) :
    TransferKeeps args s (env.afterMain args (env.mainDone args s)) ∧
      (overwrites args s → (env.afterMain args (env.mainDone args s)).error = none) := by
  have herror : (env.mainDone args s).error = none := error_advance.mpr hmain
  rw [afterMain, if_neg (by simp [herror])]
  split_ifs with hblacklist
  · refine ⟨⟨h.jobs, h.holds⟩, ?_⟩
    intro hoverwrites
    exact absurd hblacklist (by simp [hsafe.blacklist hmain hoverwrites])
  · have hblacklist : env.blacklistFails = false := by simpa using hblacklist
    let P : Progress → Prop := fun p =>
      TransferKeeps args s p ∧ (overwrites args s → p.error = none)
    have hsubtitles : P (env.subtitlesDone args s) := by
      refine Run.invariant_along P ⟨h, fun _ => herror⟩ (hsafe.subtitles hmain hblacklist) ?_
      intro p sub hp hsub
      refine ⟨keeps_subtitleStep hp.1 hsub, ?_⟩
      intro hoverwrites
      have hp := hp.2 hoverwrites
      exact error_subtitleStep hp ((hsub hp).1 hoverwrites)
    refine Run.invariant_along P hsubtitles (hsafe.tracks hmain hblacklist) ?_
    intro p track hp htrack
    refine ⟨keeps_trackStep hp.1 htrack, ?_⟩
    intro hoverwrites
    exact error_trackStep (hp.2 hoverwrites) hoverwrites htrack

/-- A transfer that is not skipped goes on after its media file, and raises what was raised
there. -/
theorem transfer_of_not_skipped (env : EngineEnv)
    (h : ¬(!args.overFlag && s.isThere (args.dstBackend.loc args.dst))) :
    (env.transfer args s).2 = env.afterMain args (env.mainDone args s) ∧
      ((env.transfer args s).1 = .ok true ↔
        (env.afterMain args (env.mainDone args s)).error = none) := by
  have hmain : env.advance args false ⟨s, none, []⟩ (mainJob args) = env.mainDone args s := rfl
  rw [transfer, if_neg h, hmain]
  simp only
  split
  · rename_i e he
    exact ⟨rfl, iff_of_false (by simp) (by simp [he])⟩
  · rename_i he
    exact ⟨rfl, iff_of_true rfl he⟩

/-- A transfer whose media file fails ends there. -/
private theorem afterMain_of_raises (h : env.jobRaises args s (mainJob args)) :
    env.afterMain args (env.mainDone args s) = env.mainDone args s := by
  have herror : (env.mainDone args s).error ≠ none := by
    rw [mainDone, Ne, error_advance]
    simp [h]
  rw [afterMain, if_pos (Option.isSome_iff_ne_none.mpr herror)]

end Transfer

/-- **A transfer whose steps are safe** leaves the old file in place where it raises, each of
its jobs loses nothing but a replaced content, and so does the transfer. -/
theorem transfer_keeps (env : EngineEnv) (args : Args) (s : Store)
    (hsafe : args.overFlag ∨ ¬s.isThere (args.dstBackend.loc args.dst) →
      env.TransferSafe args s) :
    (∀ e old, (env.transfer args s).1 = .error e → args.overFlag → args.oldFile = some old →
      s.isThere (args.dstBackend.loc old) →
      s.InPlace (env.transfer args s).2.store (args.dstBackend.loc old)) ∧
    (∀ r ∈ (env.transfer args s).2.jobs, Keeps args r) ∧
    ∀ c, s.Holds c → (env.transfer args s).2.store.Holds c ∨
      ∃ r ∈ (env.transfer args s).2.jobs, Retires args r c := by
  by_cases hskip : !args.overFlag && s.isThere (args.dstBackend.loc args.dst)
  · rw [transfer, if_pos hskip]
    exact ⟨fun _ _ h => (by cases h), fun r hr => (by simp at hr), fun c hc => Or.inl hc⟩
  · have hsafe : env.TransferSafe args s := by
      apply hsafe
      cases hover : args.overFlag with
      | true => exact Or.inl rfl
      | false => exact Or.inr (by simpa [hover] using hskip)
    obtain ⟨hstore, hok⟩ := transfer_of_not_skipped env hskip
    have herror : ∀ e, (env.transfer args s).1 = .error e →
        (env.afterMain args (env.mainDone args s)).error ≠ none := by
      intro e he hnone
      rw [hok.mpr hnone] at he
      cases he
    have hstart : TransferKeeps args s ⟨s, none, []⟩ :=
      ⟨fun r hr => (by simp at hr), fun c hc => Or.inl hc⟩
    have hdone : TransferKeeps args s (env.mainDone args s) := keeps_advance hstart hsafe.main
    rw [hstore]
    cases hmain : env.jobRaises args s (mainJob args) with
    | true =>
      rw [afterMain_of_raises hmain]
      refine ⟨?_, hdone.jobs, hdone.holds⟩
      intro e old _ hover hold hthere
      have hjob : (mainJob args).old = some old := by rw [mainJob, if_pos hover, hold]
      cases hrun : (env.runJob args s (mainJob args)).1 with
      | ok u => exact absurd (runJob_ok_iff.mp hrun) (by simp [hmain])
      | error e' => exact (runJob_keeps hsafe.main).inPlace e' old hrun hjob hthere
    | false =>
      obtain ⟨hkeeps, hraises⟩ := afterMain_keeps hsafe hmain hdone
      refine ⟨?_, hkeeps.jobs, hkeeps.holds⟩
      intro e old he hover hold hthere
      have hjob : (mainJob args).old = some old := by rw [mainJob, if_pos hover, hold]
      have hoverwrites : overwrites args s := (replaces_of_old hjob).trans hthere
      exact absurd (hraises hoverwrites) (herror e he)

/-- An engine whose operations fail as given, on files without subtitles or tracks. -/
def plainEnv (fault : Fault) : EngineEnv where
  sameDevice _ _ := false
  acceptsSelfCopy _ := true
  truncated := ⟨0, 0⟩
  fault _ := fault
  blacklistFails := false
  subtitles _ _ _ := []
  tracks _ _ _ := []

/-- A library file, and a download that is to take its place. -/
def replacing : Args :=
  { src := Text.of "new.mkv", dst := Text.of "lib.mkv", operation := .copy, overFlag := true,
    oldFile := some (Text.of "lib.mkv") }

def replacingStore : Store :=
  let s : Store := ⟨fun _ => none, fun _ => ⟨0, 0⟩, 0, FileStore.bounded_empty⟩
  (s.write (0, Text.of "lib.mkv") ⟨1, 10⟩).write (0, Text.of "new.mkv") ⟨2, 20⟩

/-- Without a failure the overwrite is safe. -/
theorem plain_overwrite_keeps :
    (plainEnv .none).transfer replacing replacingStore |>.2.jobs.length = 1 ∧
    ∀ c, replacingStore.Holds c →
      ((plainEnv .none).transfer replacing replacingStore).2.store.Holds c ∨
        ∃ r ∈ ((plainEnv .none).transfer replacing replacingStore).2.jobs,
          Retires replacing r c := by
  refine ⟨by decide, (transfer_keeps (plainEnv .none) replacing replacingStore fun _ => ?_).2.2⟩
  refine ⟨.goes (fun _ => by decide) ?_ ?_, fun _ _ => rfl, fun _ _ => trivial, fun _ _ => trivial⟩
  · intro _ c hc
    have hkept : (cleared replacing replacingStore (mainJob replacing)).read
        (0, Text.of "new.mkv") = replacingStore.read (0, Text.of "new.mkv") := by decide
    exact FileStore.holds_of_read (hkept.trans hc)
  · intro _
    exact FileStore.targetSpare_of_free (by decide)

/-- The copy of the new version breaks off half way: the transfer raises, and of the old file
only the beginning of the new one is left. -/
theorem broken_overwrite_loses :
    ((plainEnv (.partway ⟨3, 5⟩)).transfer replacing replacingStore).1 = .error .io ∧
    replacingStore.read (0, Text.of "lib.mkv") = some ⟨1, 10⟩ ∧
    ((plainEnv (.partway ⟨3, 5⟩)).transfer replacing replacingStore).2.store.read
      (0, Text.of "lib.mkv") = some ⟨3, 5⟩ := by
  decide

end EngineEnv

end WolfNas
