import WolfNas.Media.EpisodeText
import WolfNas.Transfer.Arrival

/-!
# Subtitles and the videos they go with

A video takes along the subtitles of its directory that match it: by the stem of their names, by a
name that both have, or because neither the seasons nor the episodes contradict each other.  One
name is enough, whatever the episode, and so is no contradiction, whatever the work; so a subtitle
goes with its own video alone exactly where the names of the directory leave no such doubt.

## Main definitions

* `subtitleMatch` — `_subtitle_match`.
* `SubtitleEnv`, `SubtitleEnv.sidecars` — the subtitles that a video takes along, for the engine.
* `SubtitleEnv.Own` — the subtitle of a video.
* `SubtitleEnv.Settled` — names that leave no doubt.
* `SubtitleEnv.KeptTogether` — along a run of transfers every subtitle stays with its own video.

## Main results

* `SubtitleEnv.own_iff_settled` — a match is right exactly where the names leave no doubt.
* `SubtitleEnv.still_run` — a file is left alone by a video that it is no subtitle of.
* `SubtitleEnv.arrives_of_own` — a subtitle arrives beside its own video.
* `SubtitleEnv.keptTogether_iff` — for every order of the videos and every operation.
-/

namespace WolfNas

open Text FileStore

/-! ## The match -/

/-- Both have a name, which is one. -/
def sameName (a b : Option Text) : Prop := orEmpty a ≠ [] ∧ a = b

instance (a b : Option Text) : Decidable (sameName a b) := inferInstanceAs (Decidable (_ ∧ _))

/-- `_subtitle_match`. -/
def subtitleMatch (fileName subName : Text) (video sub : MediaInfo) : Bool :=
  if (Path.splitext fileName).1 = (Path.splitext subName).1 then true
  else if sameName sub.cnName video.cnName then true
  else if sameName sub.enName video.enName then true
  else if video.getSeasonString ≠ [] ∧ video.getSeasonString ≠ sub.getSeasonString then false
  else !(video.getEpisodeString ≠ [] ∧ video.getEpisodeString ≠ sub.getEpisodeString)

/-- The names tell one work. -/
def NamedAlike (video sub : MediaInfo) : Prop :=
  sameName sub.cnName video.cnName ∨ sameName sub.enName video.enName

instance (video sub : MediaInfo) : Decidable (NamedAlike video sub) :=
  inferInstanceAs (Decidable (_ ∨ _))

/-- The names tell the same seasons and episodes. -/
def SameEpisodes (video sub : MediaInfo) : Prop :=
  video.getSeasonList = sub.getSeasonList ∧ video.getEpisodeList = sub.getEpisodeList

instance (video sub : MediaInfo) : Decidable (SameEpisodes video sub) :=
  inferInstanceAs (Decidable (_ ∧ _))

/-- The video has a season that the subtitle has not, or an episode. -/
def Contradicts (video sub : MediaInfo) : Prop :=
  (video.getSeasonString ≠ [] ∧ video.getSeasonString ≠ sub.getSeasonString) ∨
    (video.getEpisodeString ≠ [] ∧ video.getEpisodeString ≠ sub.getEpisodeString)

instance (video sub : MediaInfo) : Decidable (Contradicts video sub) :=
  inferInstanceAs (Decidable (_ ∨ _))

theorem subtitleMatch_iff {fileName subName : Text} {video sub : MediaInfo} :
    subtitleMatch fileName subName video sub = true ↔
      (Path.splitext fileName).1 = (Path.splitext subName).1 ∨ NamedAlike video sub ∨
        ¬Contradicts video sub := by
  simp only [subtitleMatch, NamedAlike, Contradicts]
  split_ifs with hstem hcn hen hseason
  · simp [hstem]
  · simp [hcn]
  · simp [hen]
  · simp only [hstem, hcn, hen, or_self, false_or, false_iff, not_not]
    exact .inl hseason
  · simp only [hstem, hcn, hen, or_self, false_or, hseason, Bool.not_eq_true',
      decide_eq_false_iff_not]

/-- What the subtitles of a directory depend on: how a name is read, the name without the marks of
its language, the mark that is written for it, and the files of a directory with the extension of a
subtitle, in the order in which they are listed. -/
structure SubtitleEnv where
  engine : EngineEnv
  metaInfo : Text → MediaInfo
  unmarked : Text → Text := id
  detectSubtitleType : Text → Text
  files : Loc → List Text

namespace SubtitleEnv

variable (env : SubtitleEnv)

/-- The name of a subtitle matches that of a video. -/
def Matches (video sub : Text) : Prop :=
  subtitleMatch video (env.unmarked sub) (env.metaInfo video) (env.metaInfo sub) = true

instance (video sub : Text) : Decidable (env.Matches video sub) := inferInstanceAs (Decidable (_ = _))

/-- The names that a subtitle can take beside a video. -/
def namesBeside (newName path : Text) : List Text :=
  let tag := env.detectSubtitleType path
  (tag :: ["1", "2", "3", "4", "5"].map fun n => tag ++ '.' :: of n).map fun tag =>
    (Path.splitext newName).1 ++ tag ++ (Path.splitext path).2

/-- The subtitles that are in the directory of a video. -/
def present (s : Store) (video : Loc) : List Text :=
  (env.files (video.1, Path.dirname video.2)).filter fun path => s.isThere (video.1, path)

/-- `transfer_subtitles`: the subtitles that a video takes along. -/
def sidecars (s : Store) (video target : Loc) : List (Text × List Text) :=
  ((env.present s video).filter fun path =>
    env.Matches (Path.basename video.2) (Path.basename path)).map fun path =>
      (path, env.namesBeside target.2 path)

/-- The engine with these subtitles. -/
def engineEnv : EngineEnv := { env.engine with subtitles := env.sidecars }

/-! ## Whose a subtitle is -/

/-- The subtitle of a video: both have one stem, or tell the same episodes of one work. -/
def Own (video sub : Text) : Prop :=
  (Path.splitext video).1 = (Path.splitext (env.unmarked sub)).1 ∨
    NamedAlike (env.metaInfo video) (env.metaInfo sub) ∧
      SameEpisodes (env.metaInfo video) (env.metaInfo sub)

/-- The names leave no doubt: they have one stem; or they tell one work, and the same episodes; or
no work that both have, and seasons or episodes that contradict each other. -/
def Settled (video sub : Text) : Prop :=
  (Path.splitext video).1 = (Path.splitext (env.unmarked sub)).1 ∨
    (NamedAlike (env.metaInfo video) (env.metaInfo sub) ∧
        SameEpisodes (env.metaInfo video) (env.metaInfo sub) ∨
      ¬NamedAlike (env.metaInfo video) (env.metaInfo sub) ∧
        Contradicts (env.metaInfo video) (env.metaInfo sub))

instance (video sub : Text) : Decidable (env.Own video sub) := inferInstanceAs (Decidable (_ ∨ _))

instance (video sub : Text) : Decidable (env.Settled video sub) :=
  inferInstanceAs (Decidable (_ ∨ _))

variable {env} {video sub : Text}

/-- **A match is right** exactly where the names leave no doubt. -/
theorem own_iff_settled : (env.Matches video sub → env.Own video sub) ↔ env.Settled video sub := by
  rw [Matches, subtitleMatch_iff, Own, Settled]
  by_cases hwork : NamedAlike (env.metaInfo video) (env.metaInfo sub)
  · simp [hwork]
  · simp only [hwork, false_or, false_and, or_false, not_false_eq_true, true_and]
    by_cases hstem : (Path.splitext video).1 = (Path.splitext (env.unmarked sub)).1
    · simp only [hstem, true_or, imp_self]
    · simp only [hstem, false_or, imp_false, not_not]

/-- A subtitle matches its own video. -/
theorem matches_of_own (h : env.Own video sub) : env.Matches video sub := by
  rw [Matches, subtitleMatch_iff]
  rcases h with hstem | ⟨hwork, -⟩
  · exact .inl hstem
  · exact .inr (.inl hwork)

/-! ## A run of transfers -/

variable {s : Store} {args : EngineEnv.Args} {k : Loc} {n : ℕ}

variable (env)

/-- One transfer. -/
def run (s : Store) (args : EngineEnv.Args) : Store := (env.engineEnv.transfer args s).2.store

/-- The transfer comes to the subtitles. -/
def Comes (s : Store) (args : EngineEnv.Args) : Prop :=
  (args.overFlag = true ∨ s.isThere (args.dstBackend.loc args.dst) = false) ∧
    (env.engineEnv.mainDone args s).error = none ∧ env.engine.blacklistFails = false

instance (s : Store) (args : EngineEnv.Args) : Decidable (env.Comes s args) :=
  inferInstanceAs (Decidable (_ ∧ _))

/-- The subtitles that are attached to the video, and where it stands. -/
def attached (s : Store) (args : EngineEnv.Args) : List (Text × Text) :=
  if env.Comes s args then
    (env.sidecars (env.engineEnv.mainDone args s).store (args.srcBackend.loc args.src)
      (args.dstBackend.loc args.dst)).map fun sub => (args.src, sub.1)
  else []

/-- The names of a video and of the subtitles in its directory leave no doubt. -/
def AllSettled (s : Store) (args : EngineEnv.Args) : Prop :=
  env.Comes s args → ∀ path ∈ env.present (env.engineEnv.mainDone args s).store
    (args.srcBackend.loc args.src), env.Settled (Path.basename args.src) (Path.basename path)

instance (s : Store) (args : EngineEnv.Args) : Decidable (env.AllSettled s args) :=
  inferInstanceAs (Decidable (_ → _))

/-- The subtitles of a transfer. -/
abbrev taken (s : Store) (args : EngineEnv.Args) : List (Text × List Text) :=
  env.sidecars (env.engineEnv.mainDone args s).store (args.srcBackend.loc args.src)
    (args.dstBackend.loc args.dst)

/-- The names that the audio tracks of a transfer may touch. -/
def trackLocs (s : Store) (args : EngineEnv.Args) : List Loc :=
  (env.engine.tracks (env.engineEnv.subtitlesDone args s).store (args.srcBackend.loc args.src)
    (args.dstBackend.loc args.dst)).flatMap (EngineEnv.trackNames args)

/-- A name is no subtitle of the video, and the transfer has nothing else to do with it. -/
structure Elsewhere (k : Loc) (s : Store) (args : EngineEnv.Args) : Prop where
  main : EngineEnv.JobClear args s (EngineEnv.mainJob args) k
  other : ∀ path, args.srcBackend.loc path = k →
    ¬env.Own (Path.basename args.src) (Path.basename path)
  names : ∀ sub ∈ env.taken s args, ∀ name ∈ sub.2, args.dstBackend.loc name ≠ k
  tracks : k ∉ env.trackLocs s args

/-- The transfer when a subtitle is next. -/
def turn (s : Store) (args : EngineEnv.Args) (before : List (Text × List Text)) :
    EngineEnv.Progress :=
  before.foldl (env.engineEnv.subtitleStep args) (env.engineEnv.mainDone args s)

/-- A subtitle is taken along.  Where it is moved, copied or linked to a name in its turn, the name
is one beside the video, and has its content when the transfer is over, unless what is taken along
after it has to do with that name. -/
def Arrives (s : Store) (args : EngineEnv.Args) (path : Text) : Prop :=
  ∃ before after, env.taken s args = before ++ (path, env.namesBeside args.dst path) :: after ∧
    ∀ c name, (env.turn s args before).error = none →
      (env.turn s args before).store.read (args.srcBackend.loc path) = some c →
      EngineEnv.subtitleTarget args (env.turn s args before).store c.size
        (env.namesBeside args.dst path) = some name →
      (env.engineEnv.runJob args (env.turn s args before).store ⟨path, name, none⟩).1 = .ok () →
      name ∈ env.namesBeside args.dst path ∧
        ((∀ l ∈ after.flatMap (EngineEnv.subtitleNames args) ++ env.trackLocs s args,
          args.dstBackend.loc name ≠ l ∧
            (env.engineEnv.runJob args (env.turn s args before).store
              ⟨path, name, none⟩).2.follow (args.dstBackend.loc name) ≠ l) →
        (env.run s args).read (args.dstBackend.loc name) = some c)

/-- The video takes along all of its own subtitles. -/
def BringsOwn (s : Store) (args : EngineEnv.Args) : Prop :=
  env.Comes s args → ∀ path ∈ env.present (env.engineEnv.mainDone args s).store
    (args.srcBackend.loc args.src),
      env.Own (Path.basename args.src) (Path.basename path) → env.Arrives s args path

/-- **Along a run of transfers every subtitle stays with its own video.** -/
structure KeptTogether (s : Store) (videos : List EngineEnv.Args) : Prop where
  /-- No video takes along a subtitle that is not its own. -/
  own : ∀ x ∈ Run.trace env.run env.attached s videos,
    env.Own (Path.basename x.1) (Path.basename x.2)
  /-- Each takes along those that are. -/
  beside : Run.Along env.run env.BringsOwn s videos
  /-- From any moment of the run on, a file is left alone by the videos that it is no subtitle
  of. -/
  stays : ∀ i k n, ((videos.take i).foldl env.run s).entry k = some (.file n) →
    Run.Along env.run (env.Elsewhere k) ((videos.take i).foldl env.run s) (videos.drop i) →
    Still ((videos.take i).foldl env.run s) (videos.foldl env.run s) k

variable {env} {c : Content} {path : Text}

theorem mem_taken {sub : Text × List Text} :
    sub ∈ env.taken s args ↔
      (sub.1 ∈ env.present (env.engineEnv.mainDone args s).store (args.srcBackend.loc args.src) ∧
        env.Matches (Path.basename args.src) (Path.basename sub.1)) ∧
        sub.2 = env.namesBeside args.dst sub.1 := by
  simp only [taken, sidecars, List.mem_map, List.mem_filter, decide_eq_true_eq]
  constructor
  · rintro ⟨path, hpath, rfl⟩
    exact ⟨hpath, rfl⟩
  · intro ⟨hpath, hnames⟩
    exact ⟨sub.1, hpath, Prod.ext rfl hnames.symm⟩

/-- What is attached to a video matches it. -/
theorem mem_attached {x : Text × Text} :
    x ∈ env.attached s args ↔ env.Comes s args ∧ x.1 = args.src ∧
      x.2 ∈ env.present (env.engineEnv.mainDone args s).store (args.srcBackend.loc args.src) ∧
        env.Matches (Path.basename args.src) (Path.basename x.2) := by
  rw [attached]
  split_ifs with hcomes
  · simp only [List.mem_map, hcomes, true_and]
    constructor
    · rintro ⟨sub, hsub, rfl⟩
      exact ⟨rfl, (mem_taken.mp hsub).1⟩
    · intro ⟨hsrc, hpath⟩
      refine ⟨(x.2, env.namesBeside args.dst x.2), mem_taken.mpr ⟨hpath, rfl⟩, ?_⟩
      exact Prod.ext hsrc.symm rfl
  · simp [hcomes]

/-- **What one transfer attaches** is the video's own exactly where the names leave no doubt. -/
theorem attached_own_iff :
    (∀ x ∈ env.attached s args, env.Own (Path.basename x.1) (Path.basename x.2)) ↔
      env.AllSettled s args := by
  constructor
  · intro h hcomes path hpath
    refine own_iff_settled.mp fun hmatch => ?_
    exact h (args.src, path) (mem_attached.mpr ⟨hcomes, rfl, hpath, hmatch⟩)
  · intro h x hx
    obtain ⟨hcomes, hsrc, hpath, hmatch⟩ := mem_attached.mp hx
    rw [hsrc]
    exact own_iff_settled.mpr (h hcomes x.2 hpath) hmatch

/-- A transfer that does not come to the subtitles has at most put the video in place. -/
theorem run_of_not_comes (h : ¬env.Comes s args) :
    env.run s args = s ∨ env.run s args = (env.engineEnv.mainDone args s).store := by
  rw [run]
  by_cases hskip : (!args.overFlag && s.isThere (args.dstBackend.loc args.dst)) = true
  · left
    rw [EngineEnv.transfer, if_pos hskip]
  · right
    rw [(EngineEnv.transfer_of_not_skipped _ hskip).1, EngineEnv.afterMain]
    split_ifs with herror hblacklist
    · rfl
    · rfl
    · refine absurd ⟨?_, ?_, ?_⟩ h
      · cases hover : args.overFlag with
        | true => exact .inl rfl
        | false => exact .inr (by simpa [hover] using hskip)
      · simpa using herror
      · exact eq_false_of_ne_true hblacklist

theorem run_of_comes (h : env.Comes s args) :
    env.run s args = ((env.engine.tracks (env.engineEnv.subtitlesDone args s).store
      (args.srcBackend.loc args.src) (args.dstBackend.loc args.dst)).foldl
        (env.engineEnv.trackStep args) (env.engineEnv.subtitlesDone args s)).store := by
  have hskip : ¬(!args.overFlag && s.isThere (args.dstBackend.loc args.dst)) = true := by
    rcases h.1 with hover | hfree
    · simp [hover]
    · simp [hfree]
  have hblacklist : env.engineEnv.blacklistFails = false := h.2.2
  rw [run, (EngineEnv.transfer_of_not_skipped _ hskip).1, EngineEnv.afterMain,
    if_neg (by simp [h.2.1]), if_neg (by simp [hblacklist])]
  rfl

/-- **A file is left alone** by a video that it is no subtitle of. -/
theorem still_run (h : env.AllSettled s args) (hk : s.entry k = some (.file n))
    (hother : env.Elsewhere k s args) : Still s (env.run s args) k := by
  have hfile : s.fileAt k = some n := fileAt_of_entry hk
  by_cases hcomes : env.Comes s args
  · have hside : k ∉ env.engineEnv.sideNames args s := by
      rw [EngineEnv.sideNames, List.mem_append, not_or]
      refine ⟨?_, hother.tracks⟩
      intro hmem
      obtain ⟨sub, hsub, hname⟩ := List.mem_flatMap.mp hmem
      rcases List.mem_cons.mp hname with hsrc | hdst
      · obtain ⟨⟨hpath, hmatch⟩, -⟩ := mem_taken.mp hsub
        exact hother.other sub.1 hsrc.symm (own_iff_settled.mpr (h hcomes sub.1 hpath) hmatch)
      · obtain ⟨name, hname, hloc⟩ := List.mem_map.mp hdst
        exact hother.names sub hsub name hname hloc
    refine EngineEnv.still_transfer hfile ⟨hother.main, hside, ?_⟩
    rw [follow_of_file hk]
    exact hside
  · rcases run_of_not_comes hcomes with hrun | hrun
    · rw [hrun]
      exact still_refl s k
    · rw [hrun]
      exact EngineEnv.still_runJob hfile hother.main

/-- **A video's own subtitle arrives** beside it. -/
theorem arrives_of_own (hcomes : env.Comes s args)
    (hpath : path ∈ env.present (env.engineEnv.mainDone args s).store
      (args.srcBackend.loc args.src))
    (hown : env.Own (Path.basename args.src) (Path.basename path)) : env.Arrives s args path := by
  have hmem : (path, env.namesBeside args.dst path) ∈ env.taken s args :=
    mem_taken.mpr ⟨⟨hpath, matches_of_own hown⟩, rfl⟩
  obtain ⟨before, after, htaken⟩ := List.append_of_mem hmem
  refine ⟨before, after, htaken, ?_⟩
  intro c name herror hread htarget hok
  obtain ⟨hname, hfree⟩ := EngineEnv.subtitleTarget_spec htarget
  refine ⟨hname, ?_⟩
  intro hlater
  set p := env.turn s args before with hp
  have hcleared : EngineEnv.cleared args p.store ⟨path, name, none⟩ = p.store := rfl
  have hput : (env.engineEnv.runJob args p.store ⟨path, name, none⟩).2.read
      (args.dstBackend.loc name) = some c := by
    refine EngineEnv.read_runJob ?_ ?_ hok
    · rw [hcleared]
      exact hread
    · obtain ⟨m, hm, -⟩ := exists_fileAt hread
      rw [hcleared, hfree, hm]
      simp
  have hstep : (env.engineEnv.subtitleStep args p (path, env.namesBeside args.dst path)).store =
      (env.engineEnv.runJob args p.store ⟨path, name, none⟩).2 := by
    rw [EngineEnv.subtitleStep, herror, hread]
    simp only [Option.isSome_none, Bool.false_eq_true, if_false, htarget]
    rfl
  have hdone : env.engineEnv.subtitlesDone args s = after.foldl (env.engineEnv.subtitleStep args)
      (env.engineEnv.subtitleStep args p (path, env.namesBeside args.dst path)) := by
    have hfold : env.engineEnv.subtitlesDone args s = (env.taken s args).foldl
        (env.engineEnv.subtitleStep args) (env.engineEnv.mainDone args s) := rfl
    rw [hfold, htaken, List.foldl_append, List.foldl_cons]
    rfl
  rw [← hstep] at hput hlater
  obtain ⟨m, hm, -⟩ := exists_fileAt hput
  have hsubs : Still (env.engineEnv.subtitleStep args p (path, env.namesBeside args.dst path)).store
      (env.engineEnv.subtitlesDone args s).store (args.dstBackend.loc name) := by
    rw [hdone]
    exact EngineEnv.still_foldl (fun _ _ => EngineEnv.still_subtitleStep) hm
      ⟨fun h => (hlater _ (List.mem_append_left _ h)).1 rfl,
        fun h => (hlater _ (List.mem_append_left _ h)).2 rfl⟩
  have htracks : Still (env.engineEnv.subtitlesDone args s).store (env.run s args)
      (args.dstBackend.loc name) := by
    rw [run_of_comes hcomes]
    refine EngineEnv.still_foldl (fun _ _ => EngineEnv.still_trackStep) (hsubs.fileAt.trans hm) ?_
    rw [hsubs.follow]
    exact ⟨fun h => (hlater _ (List.mem_append_right _ h)).1 rfl,
      fun h => (hlater _ (List.mem_append_right _ h)).2 rfl⟩
  rw [htracks.read, hsubs.read, hput]

/-! ## Every order of the videos -/

/-- **Every subtitle stays with its own video** exactly where, at each transfer that comes to the
subtitles, the names in the directory leave no doubt. -/
theorem keptTogether_iff (env : SubtitleEnv) (s : Store) (videos : List EngineEnv.Args) :
    env.KeptTogether s videos ↔ Run.Along env.run env.AllSettled s videos := by
  have hown : (∀ x ∈ Run.trace env.run env.attached s videos,
      env.Own (Path.basename x.1) (Path.basename x.2)) ↔
        Run.Along env.run env.AllSettled s videos := by
    rw [@Run.forall_trace_iff _ _ _ _ _ fun x : Text × Text =>
      env.Own (Path.basename x.1) (Path.basename x.2)]
    exact Run.along_iff fun s args => attached_own_iff
  constructor
  · intro h
    exact hown.mp h.own
  · intro h
    refine ⟨hown.mpr h, ?_, ?_⟩
    · refine Run.along_of_forall (fun s args hcomes path hpath hmine => ?_) s videos
      exact arrives_of_own hcomes hpath hmine
    · intro i k n hk helse
      have hsplit := h
      rw [← List.take_append_drop i videos, Run.along_append] at hsplit
      have hrest : videos.foldl env.run s =
          (videos.drop i).foldl env.run ((videos.take i).foldl env.run s) := by
        rw [← List.foldl_append, List.take_append_drop]
      rw [hrest]
      refine Run.invariant_along (fun t => Still ((videos.take i).foldl env.run s) t k)
        (still_refl _ k) (Run.along_and.mpr ⟨hsplit.2, helse⟩) ?_
      intro t args hstill hboth
      exact hstill.trans (still_run hboth.1 (hstill.entry.trans hk) hboth.2)

/-- A directory with the subtitle of the second of two episodes. -/
def twoEpisodes : SubtitleEnv where
  engine := EngineEnv.plainEnv .none
  metaInfo name :=
    { type := some .tv, enName := some (of "Show"), beginSeason := some 1,
      beginEpisode := some (if name = of "Show.S01E01.mkv" then 1 else 2) }
  unmarked name := if name = of "Show.S01E02.eng.srt" then of "Show.S01E02.srt" else name
  detectSubtitleType _ := of ".eng"
  files dir := if dir = (0, of "/tv") then [of "/tv/Show.S01E02.eng.srt"] else []

def twoEpisodesStore : Store :=
  let s : Store := ⟨fun _ => none, fun _ => ⟨0, 0⟩, 0, FileStore.bounded_empty⟩
  ((s.write (0, of "/tv/Show.S01E01.mkv") ⟨1, 10⟩).write (0, of "/tv/Show.S01E02.mkv") ⟨2, 20⟩).write
    (0, of "/tv/Show.S01E02.eng.srt") ⟨3, 30⟩

def movingEpisodes : List EngineEnv.Args :=
  [{ src := of "/tv/Show.S01E01.mkv", dst := of "/lib/S01E01.mkv", operation := .move },
    { src := of "/tv/Show.S01E02.mkv", dst := of "/lib/S01E02.mkv", operation := .move }]

/-- The first episode carries off the subtitle of the second, which is left without one. -/
theorem subtitle_carried_off :
    ¬twoEpisodes.KeptTogether twoEpisodesStore movingEpisodes ∧
      (movingEpisodes.foldl twoEpisodes.run twoEpisodesStore).read (0, of "/lib/S01E01.eng.srt") =
        some ⟨3, 30⟩ ∧
      (movingEpisodes.foldl twoEpisodes.run twoEpisodesStore).read (0, of "/lib/S01E02.mkv") =
        some ⟨2, 20⟩ ∧
      (movingEpisodes.foldl twoEpisodes.run twoEpisodesStore).isThere
        (0, of "/lib/S01E02.eng.srt") = false := by
  refine ⟨fun h => ?_, by decide +kernel, by decide +kernel, by decide +kernel⟩
  exact absurd (h.own (of "/tv/Show.S01E01.mkv", of "/tv/Show.S01E02.eng.srt") (by decide +kernel))
    (by decide +kernel)

end SubtitleEnv

end WolfNas
