import WolfNas.Transfer.Directory
import WolfNas.Transfer.Loop

/-!
# Destinations that are recorded truthfully

The loop records a destination in the transfer history, and hands it to the scraper, for
every file that it takes for transferred or for known.  The destination is worth recording
only if the source's content is there.  The loop relies on the paths it is told, and these
are also told for a file that was replaced under another name, for a file whose directory was
busy, for a disc of which only a part is there, and for whatever a record of the history
names.

## Main definitions

* `LoopEnv.Good` — a recorded destination holds what the source held.
* `LoopEnv.Bears` — what is taken for known is there, or is not recorded.
* `LoopEnv.Faithful` — the condition on a decision.
* `LoopEnv.Truthful` — the condition on a step of the loop.

## Main results

* `LoopEnv.good_of_faithful` — a faithful decision leads to a good record, or to none.
* `LoopEnv.records_good` — so does every run of the loop whose steps are truthful.
-/

namespace WolfNas

open FileStore Text

/-- The place of the source. -/
def srcLoc (call : FileCall) : Loc := (orLocal call.srcBackend).loc call.regPath

/-- A place at the target. -/
def dstLoc (call : FileCall) (path : Text) : Loc := (orLocal call.dstBackend).loc path

namespace LoopEnv

variable (env : LoopEnv) (args : LoopArgs)

/-- The recorded destination holds what the source held before. -/
def Good (r : Recorded) : Prop :=
  env.lookup.Holds r.before r.after (srcLoc r.call) (dstLoc r.call r.outPath)

/-- What is taken for known under this path is there, or is not recorded: the path or its
directory is not given, or the sizes differ. -/
def Bears (w w' : LibraryState) (call : FileCall) (file dir : Text) : Prop :=
  file = [] ∨ dir = [] ∨ env.sizesDiffer args w' call file = true ∨
    env.lookup.Holds w w' (srcLoc call) (dstLoc call file)

/-- The source is a file, and a file. -/
def FileThere (w : LibraryState) (call : FileCall) : Prop :=
  ∃ c, w.files.read (srcLoc call) = some c

/-- The condition on a file that takes the place of another: unless its transfer fails, it
takes the very name of the other, neither is nor links to it, and no subtitle or track comes
in its way. -/
def ReplacesWell (w : LibraryState) (call : FileCall) (place : Place) : Prop :=
  let args := TransferEnv.replaceArgs call place
  env.engine.jobRaises args w.files (EngineEnv.mainJob args) = false →
    TransferEnv.replacementFile call place = place.file ∧ FileThere w call ∧
      srcLoc call ≠ dstLoc call place.file ∧
      w.files.follow (srcLoc call) ≠ dstLoc call place.file ∧ env.engine.Own args w.files

/-- The condition on a new disc: it is a directory of plain files, each with a target of its
own that is free or holds the file already. -/
def DiscArrives (w : LibraryState) (call : FileCall) (place : Place) : Prop :=
  w.files.isThere (srcLoc call) = false ∧ env.lookup.isDir w (srcLoc call) = true ∧
    EngineEnv.DirArrives (TransferEnv.engineArgs call place.dir) w.files
      (env.lookup.below w.files (srcLoc call))

/-- The condition on a new file: unless its transfer fails, or it finds its target taken, it
is a file, and no subtitle or track comes in its way. -/
def FileArrives (w : LibraryState) (call : FileCall) (place : Place) : Prop :=
  let args := TransferEnv.engineArgs call (TransferEnv.targetFile call place)
  w.files.isThere (dstLoc call (TransferEnv.targetFile call place)) = false →
    env.engine.jobRaises args w.files (EngineEnv.mainJob args) = false →
      FileThere w call ∧ env.engine.Own args w.files

/-- The condition on a decision under which its file is recorded truthfully. -/
def Faithful (w : LibraryState) (call : FileCall) : Decision → Prop
  | .known file dir => env.Bears args w w call file dir
  | .discPresent place =>
    env.lookup.isExtras call.fileItem = true ∨
      env.lookup.Holds w w (srcLoc call) (dstLoc call place.dir)
  | .overwrite place =>
    if env.isBusy call place.dir then env.Bears args w w call place.file place.dir
    else env.ReplacesWell w call place
  | .refuse _ => True
  | .disc place => ∀ w', env.makeDirs w call place = .ok w' →
    if env.isBusy call place.dir then env.Bears args w w' call place.file place.dir
    else env.lookup.isExtras call.fileItem = true ∨ env.DiscArrives w call place
  | .put place => ∀ w', env.makeDirs w call place = .ok w' →
    if env.isBusy call place.dir then
      env.Bears args w w' call (TransferEnv.targetFile call place) place.dir
    else env.lookup.isExtras call.fileItem = true ∨ env.FileArrives w call place

/-- The condition on a step of the loop. -/
def Truthful (st : LoopState) (item : Text × Option MediaInfo) : Prop :=
  st.ended = false → ∀ call, env.prepare args st.lib item.1 item.2 = .ready call →
    ∀ finding, env.lookup.duplicateChecks st.lib call = .ok finding →
      env.Faithful args st.lib call (env.decision st.lib call finding)

/-! ## What is recorded -/

variable {env args} {w w' : LibraryState} {call : FileCall} {o : Outcome} {path : Text}

/-- Of a file that was there already, the old path is recorded. -/
private theorem recorded_of_exist (hexist : 0 < o.existNum)
    (h : env.handling args w call o = .recorded path) :
    path = o.retFile ∧ o.retFile ≠ [] ∧ o.retDir ≠ [] ∧
      env.sizesDiffer args w call o.retFile = false := by
  rw [handling, if_pos (.inr hexist)] at h
  split_ifs at h with hpaths hsizes
  · obtain rfl := Handling.recorded.inj h
    exact ⟨rfl, hpaths.2.1, hpaths.2.2, by simpa using hsizes⟩

/-- Of a new file, the new path is recorded, and of a new disc its directory. -/
private theorem recorded_of_new (hexist : o.existNum = 0)
    (h : env.handling args w call o = .recorded path) :
    env.lookup.isExtras call.fileItem = false ∧
      path = if call.bluray then o.retDir else o.newFile := by
  rw [handling] at h
  by_cases hrefused : refused o = true ∨ 0 < o.existNum
  · have hpaths : ¬(0 < o.existNum ∧ o.retFile ≠ [] ∧ o.retDir ≠ []) := by simp [hexist]
    rw [if_pos hrefused, if_neg hpaths] at h
    cases h
  · rw [if_neg hrefused] at h
    by_cases hextras : env.lookup.isExtras call.fileItem = true
    · rw [if_pos hextras] at h
      cases h
    · rw [if_neg hextras] at h
      exact ⟨by simpa using hextras, (Handling.recorded.inj h).symm⟩

/-- A path that bears out what is recorded under it is good. -/
private theorem holds_of_bears (h : env.handling args w' call o = .recorded path)
    (hexist : 0 < o.existNum) (hbears : env.Bears args w w' call o.retFile o.retDir) :
    env.lookup.Holds w w' (srcLoc call) (dstLoc call path) := by
  obtain ⟨rfl, hfile, hdir, hsizes⟩ := recorded_of_exist hexist h
  rcases hbears with hnone | hnone | hdiffer | hholds
  · exact absurd hnone hfile
  · exact absurd hnone hdir
  · simp [hsizes] at hdiffer
  · exact hholds

/-- A file is held by a place that reads its content. -/
theorem holds_of_file {a b : Loc} {c : Content} (ha : w.files.read a = some c)
    (hb : w'.files.read b = some c) : env.lookup.Holds w w' a b := by
  obtain ⟨n, hn, _⟩ := exists_fileAt ha
  have hthere : w.files.isThere a = true := by rw [isThere, hn]; rfl
  refine ⟨by rw [LookupEnv.pathExists, hthere]; rfl, ?_⟩
  intro p hp
  rw [LookupEnv.parts, if_pos hthere] at hp
  obtain rfl := List.mem_singleton.mp hp
  exact ⟨c, ha, hb⟩

/-- Decisions about discs are made for discs, and those about files for files. -/
theorem bluray_of_decision (env : LoopEnv) (w : LibraryState) (call : FileCall)
    (finding : Finding) :
    match env.decision w call finding with
    | .disc _ | .discPresent _ => call.bluray = true
    | .put _ | .overwrite _ => call.bluray = false
    | _ => True := by
  cases finding with
  | source path => trivial
  | identity path => trivial
  | episode place => trivial
  | fresh place stale =>
    simp only [TransferEnv.decision, TransferEnv.placeNew]
    split_ifs <;> simp_all

/-- An answer without paths is never recorded. -/
private theorem not_recorded_of_refused (hexist : o.existNum = 0) (hfile : o.retFile = [])
    (hdir : o.retDir = []) : env.handling args w call o ≠ .recorded path := by
  have hrefused : refused o = true := by simp [refused, hfile, hdir]
  have hpaths : ¬(0 < o.existNum ∧ o.retFile ≠ [] ∧ o.retDir ≠ []) := by simp [hexist]
  rw [handling, if_pos (.inl hrefused), if_neg hpaths]
  simp

/-! ## The decisions, one by one -/

variable {place : Place}

/-- A file that takes the place of another is recorded truthfully. -/
private theorem good_of_overwrite (hreg : call.regPath = call.fileItem)
    (hfaithful : env.Faithful args w call (.overwrite place))
    (hperform : env.performOverwrite w call place = (.ok o, w'))
    (h : env.handling args w' call o = .recorded path) :
    env.lookup.Holds w w' (srcLoc call) (dstLoc call path) := by
  rw [Faithful] at hfaithful
  obtain ⟨rfl, ⟨hbusy, rfl⟩ | ⟨hbusy, hfiles, b, hr⟩⟩ := TransferEnv.performOverwrite_ok hperform
  · rw [if_pos hbusy] at hfaithful
    exact holds_of_bears h Nat.one_pos hfaithful
  · rw [if_neg (by simp [hbusy])] at hfaithful
    have hok := EngineEnv.transfer_ok_of_over rfl hr
    have hraises := EngineEnv.runJob_ok_iff.mp (EngineEnv.runJob_of_transfer hok).1
    obtain ⟨hsame, ⟨c, hread⟩, hne, hlink, hown⟩ := hfaithful hraises
    obtain ⟨rfl, _⟩ := recorded_of_exist Nat.one_pos h
    have hsrc : srcLoc call = (orLocal call.srcBackend).loc call.fileItem := by rw [srcLoc, hreg]
    rw [hsrc] at hread hne hlink ⊢
    have harrives : env.engine.Arrives (TransferEnv.replaceArgs call place) w.files c := by
      refine EngineEnv.arrives_same rfl ?_ hread ⟨?_, ?_⟩ hown
      · exact congrArg some hsame.symm
      · rw [← hsame] at hne
        exact hne
      · rw [← hsame] at hlink
        exact hlink
    have hput := EngineEnv.read_transfer harrives hok
    refine holds_of_file hread ?_
    rw [hfiles, dstLoc, ← hsame]
    exact hput

/-- A new file is recorded truthfully. -/
private theorem good_of_put (hreg : call.regPath = call.fileItem) (hfile : call.bluray = false)
    (hfaithful : env.Faithful args w call (.put place))
    (hperform : env.performPut w call place = (.ok o, w'))
    (h : env.handling args w' call o = .recorded path) :
    env.lookup.Holds w w' (srcLoc call) (dstLoc call path) := by
  obtain ⟨w₁, hdirs, ⟨hbusy, rfl, rfl⟩ | ⟨hbusy, hfiles, hput⟩⟩ :=
    TransferEnv.performPut_ok hperform
  · have hcond := hfaithful _ hdirs
    rw [if_pos hbusy] at hcond
    exact holds_of_bears h Nat.one_pos hcond
  · have hcond := hfaithful _ hdirs
    rw [if_neg (by simp [hbusy])] at hcond
    rcases hput with ⟨hr, rfl⟩ | ⟨_, rfl⟩
    · have hraises := EngineEnv.runJob_ok_iff.mp (EngineEnv.runJob_of_transfer hr).1
      have hfree := EngineEnv.free_of_transfer rfl hr
      obtain ⟨hextras, rfl⟩ := recorded_of_new rfl h
      have harrives := hcond.resolve_left (by simp [hextras])
      obtain ⟨⟨c, hread⟩, hown⟩ := harrives hfree hraises
      have hput := EngineEnv.read_transfer (c := c)
        (EngineEnv.arrives_new rfl (by rw [← hread, srcLoc, hreg]; rfl) hfree hown) hr
      rw [hfile]
      refine holds_of_file hread ?_
      rw [hfiles]
      exact hput
    · exact absurd h (not_recorded_of_refused rfl rfl rfl)

/-- A new disc is recorded truthfully. -/
private theorem good_of_disc (hreg : call.regPath = call.fileItem) (hdisc : call.bluray = true)
    (hfaithful : env.Faithful args w call (.disc place))
    (hperform : env.performDisc w call place = (.ok o, w'))
    (h : env.handling args w' call o = .recorded path) :
    env.lookup.Holds w w' (srcLoc call) (dstLoc call path) := by
  obtain ⟨w₁, hdirs, ⟨hbusy, rfl, rfl⟩ | ⟨hbusy, rfl, hfiles, hr⟩⟩ :=
    TransferEnv.performDisc_ok hperform
  · have hcond := hfaithful _ hdirs
    rw [if_pos hbusy] at hcond
    exact holds_of_bears h Nat.one_pos hcond
  · have hcond := hfaithful _ hdirs
    rw [if_neg (by simp [hbusy])] at hcond
    obtain ⟨hextras, rfl⟩ := recorded_of_new rfl h
    obtain ⟨hnofile, hdir, harrives⟩ := hcond.resolve_left (by simp [hextras])
    have hsrc : srcLoc call = (orLocal call.srcBackend).loc call.fileItem := by rw [srcLoc, hreg]
    rw [hsrc] at harrives hnofile hdir ⊢
    rw [hdisc]
    refine ⟨by rw [LookupEnv.pathExists, hdir, Bool.or_true], ?_⟩
    intro p hp
    rw [LookupEnv.parts, if_neg (by simp [hnofile])] at hp
    obtain ⟨rel, hrel, rfl⟩ := List.mem_map.mp hp
    obtain ⟨n, hplain⟩ := harrives.plain rel hrel
    have hread := read_of_fileAt (fileAt_of_entry hplain)
    rw [hfiles]
    exact ⟨_, hread, (EngineEnv.read_blurayDir harrives hr rel hrel).trans hread⟩

/-- **A faithful decision** leads to a good record, or to none. -/
theorem good_of_faithful {finding : Finding} (hreg : call.regPath = call.fileItem)
    (hfaithful : env.Faithful args w call (env.decision w call finding))
    (hperform : env.perform w call (env.decision w call finding) = (.ok o, w'))
    (h : env.handling args w' call o = .recorded path) :
    env.lookup.Holds w w' (srcLoc call) (dstLoc call path) := by
  have hbluray := bluray_of_decision env w call finding
  cases hdecision : env.decision w call finding with
  | known file dir =>
    rw [hdecision] at hfaithful hperform
    obtain ⟨ho, hw⟩ := Prod.ext_iff.mp hperform
    obtain rfl := Except.ok.inj ho
    obtain rfl : w = w' := hw
    exact holds_of_bears h Nat.one_pos hfaithful
  | discPresent place =>
    rw [hdecision] at hfaithful hperform hbluray
    obtain ⟨ho, hw⟩ := Prod.ext_iff.mp hperform
    obtain rfl := Except.ok.inj ho
    obtain rfl : w = w' := hw
    obtain ⟨hextras, rfl⟩ := recorded_of_new rfl h
    simp only at hbluray
    rw [hbluray]
    exact hfaithful.resolve_left (by simp [hextras])
  | overwrite place =>
    rw [hdecision] at hfaithful hperform
    exact good_of_overwrite hreg hfaithful hperform h
  | refuse place =>
    rw [hdecision] at hperform
    obtain ⟨_, rfl⟩ := TransferEnv.performRefuse_ok hperform
    exact absurd h (not_recorded_of_refused rfl rfl rfl)
  | disc place =>
    rw [hdecision] at hfaithful hperform hbluray
    exact good_of_disc hreg hbluray hfaithful hperform h
  | put place =>
    rw [hdecision] at hfaithful hperform hbluray
    exact good_of_put hreg hbluray hfaithful hperform h

/-! ## The loop -/

/-- The item is the disc, where the task is a disc. -/
def IsDisc (args : LoopArgs) (item : Text × Option MediaInfo) : Prop :=
  args.blurayDiskDir = [] ∨ item.1 = args.blurayDiskDir

/-- A disc is known by its own path, as is a file. -/
theorem regPath_fileCall {fileItem distPath : Text} {m : MediaInfo} {backend : Option Backend}
    (hdisc : args.blurayDiskDir = [] ∨ fileItem = args.blurayDiskDir) :
    (fileCall args fileItem m distPath backend).regPath = fileItem := by
  rw [fileCall]
  simp only [regPathOf]
  split_ifs with hnone
  · rfl
  · exact (hdisc.resolve_left hnone).symm

/-- **A truthful step** adds good records only. -/
theorem good_fileStep {st : LoopState} {item : Text × Option MediaInfo}
    (hgood : ∀ r ∈ st.records, env.Good r) (htruthful : env.Truthful args st item)
    (hdisc : IsDisc args item) : ∀ r ∈ (env.fileStep args st item).records, env.Good r := by
  rw [fileStep]
  split_ifs with hended
  · exact hgood
  have hcond := htruthful (by simpa using hended)
  cases hprepare : env.prepare args st.lib item.1 item.2 with
  | skipped => exact hgood
  | broken => exact hgood
  | noTarget => exact hgood
  | noDirectory => exact hgood
  | unrecognised =>
    simp only
    split <;> exact hgood
  | ready call =>
    have hreg : call.regPath = call.fileItem := by
      obtain ⟨m, distPath, backend, _, rfl⟩ := prepare_ready hprepare
      exact regPath_fileCall hdisc
    have hfaithful := hcond call hprepare
    simp only
    rcases hdo : env.doTransferFile st.lib call with ⟨e | o, w⟩
    · exact hgood
    rw [TransferEnv.doTransferFile] at hdo
    cases hchecks : env.lookup.duplicateChecks st.lib call with
    | error e =>
      rw [hchecks] at hdo
      cases hdo
    | ok finding =>
      rw [hchecks] at hdo
      simp only [settle]
      cases hhandling : env.handling args w call o with
      | passed => exact hgood
      | mismatch => exact hgood
      | recorded path =>
        have hrecorded : ∀ r ∈ st.records ++ [⟨st.lib, call, w, path⟩], env.Good r := by
          intro r hr
          rcases List.mem_append.mp hr with hr | hr
          · exact hgood r hr
          · obtain rfl := List.mem_singleton.mp hr
            exact good_of_faithful hreg (hfaithful finding hchecks) hdo hhandling
        simp only
        split_ifs
        · exact hgood
        · exact hrecorded
        · exact hrecorded

/-- A record is not good if there is nothing at its path, though its source was a file. -/
theorem not_good_of_lost {r : Recorded} (hthere : r.before.files.isThere (srcLoc r.call) = true)
    (hread : r.after.files.read (dstLoc r.call r.outPath) = none) : ¬env.Good r := by
  intro hgood
  have hpart : (srcLoc r.call, dstLoc r.call r.outPath) ∈
      env.lookup.parts r.before (srcLoc r.call) (dstLoc r.call r.outPath) := by
    rw [LookupEnv.parts, if_pos hthere]
    exact List.mem_cons_self
  obtain ⟨c, _, hc⟩ := hgood.2 _ hpart
  rw [hread] at hc
  cases hc

/-- Local files, one library directory, and nothing that fails. -/
def plainLoop (fileName : Text) : LoopEnv where
  lookup := { LookupEnv.plainLookup with layout := fun dist _ _ => ⟨[dist], dist, fileName⟩ }
  engine := EngineEnv.plainEnv .none
  busy _ := false
  mkdirFails _ := false
  pending _ := false
  unknownListed _ := false
  needsUnknown _ := true
  isSample _ := false
  inExtrasDir _ := false
  isCollection _ := false
  hasProviderData _ := true
  parsesRef _ := false
  getName _ := []
  bestTargetPath _ _ := []
  resolveDstBackend _ _ := none
  unknownPath _ := []
  recordFails _ := false
  handOnFails _ := false

/-- A library root, with these files in it and elsewhere. -/
def libraryWith (files : Store) : LibraryState where
  files := files
  dirs := [(0, of "/lib")]
  history := ⟨[], by decide⟩

/-- The first episode of a series. -/
def firstEpisode : MediaInfo :=
  { type := some .tv, title := some (of "Show"), tmdbId := .int 7, beginSeason := some 1,
    beginEpisode := some 1 }

def toLibrary (udf : Bool) : LoopArgs where
  inPath := of "/dl"
  operation := .copy
  targetDir := of "/lib"
  udf := udf

end LoopEnv

end WolfNas
