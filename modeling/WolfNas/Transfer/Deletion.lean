import WolfNas.Lib.Run
import WolfNas.Transfer.Directory
import WolfNas.Transfer.Pipeline
import WolfNas.Transfer.Truthful

/-!
# What is left when the torrent is deleted

A task that has succeeded with the operation `move` ends with the deletion of the torrent and
its data, so success has to mean that every media file of the torrent is in the library.  It
means that no step of the loop cleared the flag, and some steps that put nothing into the
library do not clear it.

## Main definitions

* `Wanted` — a media file of the torrent, with its content when the task began.
* `Wanted.Stored` — a place in the library holds that content, apart from the torrent.
* `LoopEnv.Fails`, `LoopEnv.Keeps` — the steps that clear the flag, and those that store the
  wanted content or leave it where it is stored.
* `PipelineEnv.Lossless` — the condition on a task.

## Main results

* `LoopEnv.stored_fileStep` — what a step of the loop does to the wanted content.
* `PipelineEnv.stored_of_deleted` — what a task does to it.
-/

namespace WolfNas

open FileStore Text

/-- A media file of a torrent, its content when the task began, and the data of the torrent.
Which places belong to the library is left open. -/
structure Wanted where
  library : Loc → Prop
  data : List Loc
  file : Loc
  content : Content

namespace Wanted

variable (d : Wanted) (s : Store)

/-- The place is one of the library and holds the content, apart from the torrent. -/
structure Kept (l : Loc) : Prop where
  library : d.library l
  apart : l ∉ d.data ∧ s.follow l ∉ d.data
  read : s.read l = some d.content

/-- Some place of the library holds the content, apart from the torrent. -/
def Stored : Prop := ∃ l, d.Kept s l

/-- The transfer of a file moves the content into the library, or leaves it alone there. -/
def FileKeeps (engine : EngineEnv) (args : EngineEnv.Args) : Prop :=
  (engine.Moves args s d.content ∧ d.library (args.dstBackend.loc args.dst) ∧
      args.dstBackend.loc args.dst ∉ d.data) ∨
    ∃ l, d.Kept s l ∧ engine.Spares args s l

/-- So does the transfer of a disc. -/
def DiscKeeps (args : EngineEnv.Args) (files : List Text) : Prop :=
  (EngineEnv.DirArrives args s files ∧
      ∃ rel ∈ files, s.read (EngineEnv.srcOf args rel) = some d.content ∧
        d.library (EngineEnv.dstOf args rel) ∧ EngineEnv.dstOf args rel ∉ d.data) ∨
    ∃ l, d.Kept s l ∧
      l ∉ EngineEnv.dirNames args files ∧ s.follow l ∉ EngineEnv.dirNames args files

variable {d s} {s' : Store} {l : Loc} {engine : EngineEnv} {args : EngineEnv.Args}

/-- A place that is left alone keeps the content. -/
theorem kept_still (h : d.Kept s l) (hstill : Still s s' l) : d.Kept s' l := by
  refine ⟨h.library, ?_, ?_⟩
  · rw [hstill.follow]
    exact h.apart
  · rw [hstill.read]
    exact h.read

/-- A file of its own outside the torrent keeps the content. -/
theorem kept_of_self (hlibrary : d.library l) (hdata : l ∉ d.data) (hself : s.follow l = l)
    (hread : s.read l = some d.content) : d.Kept s l := by
  refine ⟨hlibrary, ⟨hdata, ?_⟩, hread⟩
  rw [hself]
  exact hdata

theorem stored_transfer (hop : args.operation ≠ .softlink) (h : d.FileKeeps s engine args)
    (hok : (engine.transfer args s).1 = .ok true) :
    d.Stored (engine.transfer args s).2.store := by
  rcases h with ⟨hmoves, hlibrary, hdata⟩ | ⟨l, hkept, hspares⟩
  · obtain ⟨hread, hself⟩ := EngineEnv.moved_transfer hop hmoves hok
    exact ⟨_, kept_of_self hlibrary hdata hself hread⟩
  · obtain ⟨n, hn, _⟩ := exists_fileAt hkept.read
    exact ⟨l, kept_still hkept (EngineEnv.still_transfer hn hspares)⟩

theorem stored_blurayDir {files : List Text} (hop : args.operation ≠ .softlink)
    (h : d.DiscKeeps s args files) (hok : (engine.transferBlurayDir args s files).1 = .ok ()) :
    d.Stored (engine.transferBlurayDir args s files).2 := by
  rcases h with ⟨harrives, rel, hrel, hread, hlibrary, hdata⟩ | ⟨l, hkept, hnames⟩
  · have hput := EngineEnv.read_blurayDir harrives hok rel hrel
    have hself := EngineEnv.follow_blurayDir harrives hop hok rel hrel
    exact ⟨_, kept_of_self hlibrary hdata hself (hput.trans hread)⟩
  · obtain ⟨n, hn, _⟩ := exists_fileAt hkept.read
    exact ⟨l, kept_still hkept (EngineEnv.still_blurayDir hn hnames)⟩

end Wanted

/-! ## A step of the loop -/

namespace LoopEnv

variable (env : LoopEnv) (args : LoopArgs) (d : Wanted)

/-- The file is among those of the item. -/
def Turn (w : LibraryState) (item : Text × Option MediaInfo) : Prop :=
  d.file ∈ env.lookup.filesAt w ((orLocal args.srcBackend).loc item.1)

/-- A decision clears the flag: it leads to an error, to a file counted as failed, or to an
answer without any path. -/
def DecisionFails (w : LibraryState) (call : FileCall) : Decision → Prop
  | .known file dir => file = [] ∧ dir = []
  | .discPresent place => place.file = [] ∧ place.dir = []
  | .refuse _ => True
  | .overwrite place =>
    env.isBusy call place.dir = false ∧
      let args := TransferEnv.replaceArgs call place
      env.engine.jobRaises args w.files (EngineEnv.mainJob args) = true
  | .disc place =>
    (∃ e, env.makeDirs w call place = .error e) ∨
      env.isBusy call place.dir = false ∧
        let args := TransferEnv.engineArgs call place.dir
        (env.engine.transferBlurayDir args w.files
          (env.lookup.below w.files (args.srcBackend.loc call.fileItem))).1 ≠ .ok ()
  | .put place =>
    (∃ e, env.makeDirs w call place = .error e) ∨
      env.isBusy call place.dir = false ∧
        let args := TransferEnv.engineArgs call (TransferEnv.targetFile call place)
        (w.files.isThere (args.dstBackend.loc args.dst) = true ∨
          env.engine.jobRaises args w.files (EngineEnv.mainJob args) = true)

/-- The step clears the flag. -/
def Fails (st : LoopState) (item : Text × Option MediaInfo) : Prop :=
  match env.prepare args st.lib item.1 item.2 with
  | .broken | .unrecognised | .noDirectory => True
  | .skipped | .noTarget => False
  | .ready call => ∀ finding, env.lookup.duplicateChecks st.lib call = .ok finding →
    env.DecisionFails st.lib call (env.decision st.lib call finding)

/-- A decision stores the wanted content or leaves it where it is stored, if this is its turn
or it is stored already. -/
def DecisionKeeps (turn : Prop) (w : LibraryState) (call : FileCall) : Decision → Prop
  | .known _ _ | .discPresent _ | .refuse _ => turn → d.Stored w.files
  | .overwrite place =>
    if env.isBusy call place.dir then turn → d.Stored w.files
    else turn ∨ d.Stored w.files →
      d.FileKeeps w.files env.engine (TransferEnv.replaceArgs call place)
  | .disc place =>
    if env.isBusy call place.dir then turn → d.Stored w.files
    else turn ∨ d.Stored w.files →
      let args := TransferEnv.engineArgs call place.dir
      d.DiscKeeps w.files args (env.lookup.below w.files (args.srcBackend.loc call.fileItem))
  | .put place =>
    if env.isBusy call place.dir then turn → d.Stored w.files
    else turn ∨ d.Stored w.files →
      d.FileKeeps w.files env.engine
        (TransferEnv.engineArgs call (TransferEnv.targetFile call place))

/-- The step stores the wanted content or leaves it where it is stored, if this is its turn or
it is stored already. -/
def Keeps (st : LoopState) (item : Text × Option MediaInfo) : Prop :=
  let turn := env.Turn args d st.lib item
  match env.prepare args st.lib item.1 item.2 with
  | .broken | .unrecognised | .noDirectory => True
  | .skipped | .noTarget => turn → d.Stored st.lib.files
  | .ready call => ∀ finding, env.lookup.duplicateChecks st.lib call = .ok finding →
    env.DecisionKeeps d turn st.lib call (env.decision st.lib call finding)

/-- The condition on a step: unless the flag is cleared already, the step clears it, or keeps
the wanted content. -/
def StepKeeps (st : LoopState) (item : Text × Option MediaInfo) : Prop :=
  st.success = true → env.Fails args st item ∨ env.Keeps args d st item

/-- The step does not count a failure beside the flag: there is a library for its file, and
the sizes do not differ. -/
def Counts (st : LoopState) (item : Text × Option MediaInfo) : Prop :=
  st.success = true → env.prepare args st.lib item.1 item.2 ≠ .noTarget ∧
    ∀ call, env.prepare args st.lib item.1 item.2 = .ready call →
      ∀ o w, env.doTransferFile st.lib call = (.ok o, w) → env.handling args w call o ≠ .mismatch

variable {env args d} {w w' : LibraryState} {call : FileCall} {o : Outcome} {st : LoopState}
  {item : Text × Option MediaInfo} {decision : Decision} {turn : Prop}

/-- A decision that fails is answered with an error, or with a refusal. -/
theorem refused_of_fails (h : env.DecisionFails w call decision)
    (hperform : env.perform w call decision = (.ok o, w')) : refused o = true := by
  cases decision with
  | known file dir =>
    obtain ⟨rfl, rfl⟩ := h
    obtain ⟨ho, _⟩ := Prod.ext_iff.mp hperform
    obtain rfl := Except.ok.inj ho
    rfl
  | discPresent place =>
    obtain ⟨ho, _⟩ := Prod.ext_iff.mp hperform
    obtain rfl := Except.ok.inj ho
    simp [refused, h.1, h.2]
  | refuse place =>
    obtain ⟨_, rfl⟩ := TransferEnv.performRefuse_ok hperform
    simp [refused, TransferEnv.recordFail]
  | overwrite place =>
    obtain ⟨hfree, hraises⟩ := h
    obtain ⟨_, ⟨hbusy, _⟩ | ⟨_, _, b, hr⟩⟩ := TransferEnv.performOverwrite_ok hperform
    · simp [hfree] at hbusy
    · have hrun := (EngineEnv.runJob_of_transfer (EngineEnv.transfer_ok_of_over rfl hr)).1
      simp [EngineEnv.runJob_ok_iff.mp hrun] at hraises
  | disc place =>
    obtain ⟨w₁, hdirs, hdone⟩ := TransferEnv.performDisc_ok hperform
    rcases h with ⟨e, herror⟩ | ⟨hfree, hraises⟩
    · rw [herror] at hdirs
      cases hdirs
    · rcases hdone with ⟨hbusy, _⟩ | ⟨_, _, _, hr⟩
      · simp [hfree] at hbusy
      · exact absurd hr hraises
  | put place =>
    obtain ⟨w₁, hdirs, hdone⟩ := TransferEnv.performPut_ok hperform
    rcases h with ⟨e, herror⟩ | ⟨hfree, hraises⟩
    · rw [herror] at hdirs
      cases hdirs
    · rcases hdone with ⟨hbusy, _⟩ | ⟨_, _, ⟨hr, _⟩ | ⟨_, rfl⟩⟩
      · simp [hfree] at hbusy
      · rcases hraises with hthere | hraises
        · simp [EngineEnv.free_of_transfer rfl hr] at hthere
        · simp [EngineEnv.runJob_ok_iff.mp (EngineEnv.runJob_of_transfer hr).1] at hraises
      · simp [refused, TransferEnv.recordFail]

/-- **A decision that keeps the wanted content** has it stored where its answer is no
refusal. -/
theorem stored_perform (hop : call.operation ≠ .softlink)
    (h : env.DecisionKeeps d turn w call decision) (hbefore : turn ∨ d.Stored w.files)
    (hperform : env.perform w call decision = (.ok o, w')) (hok : refused o = false) :
    d.Stored w'.files := by
  cases decision with
  | known file dir =>
    obtain ⟨_, rfl⟩ := Prod.ext_iff.mp hperform
    exact hbefore.elim h id
  | discPresent place =>
    obtain ⟨_, rfl⟩ := Prod.ext_iff.mp hperform
    exact hbefore.elim h id
  | refuse place =>
    obtain ⟨hfiles, _⟩ := TransferEnv.performRefuse_ok hperform
    rw [hfiles]
    exact hbefore.elim h id
  | overwrite place =>
    rw [DecisionKeeps] at h
    obtain ⟨_, ⟨hbusy, rfl⟩ | ⟨hbusy, hfiles, b, hr⟩⟩ := TransferEnv.performOverwrite_ok hperform
    · rw [if_pos hbusy] at h
      exact hbefore.elim h id
    · rw [if_neg (by simp [hbusy])] at h
      rw [hfiles]
      exact Wanted.stored_transfer hop (h hbefore) (EngineEnv.transfer_ok_of_over rfl hr)
  | disc place =>
    rw [DecisionKeeps] at h
    obtain ⟨w₁, hdirs, ⟨hbusy, rfl, _⟩ | ⟨hbusy, _, hfiles, hr⟩⟩ :=
      TransferEnv.performDisc_ok hperform
    · rw [if_pos hbusy] at h
      rw [TransferEnv.files_makeDirs hdirs]
      exact hbefore.elim h id
    · rw [if_neg (by simp [hbusy])] at h
      rw [hfiles]
      exact Wanted.stored_blurayDir hop (h hbefore) hr
  | put place =>
    rw [DecisionKeeps] at h
    obtain ⟨w₁, hdirs, ⟨hbusy, rfl, _⟩ | ⟨hbusy, hfiles, ⟨hr, _⟩ | ⟨_, rfl⟩⟩⟩ :=
      TransferEnv.performPut_ok hperform
    · rw [if_pos hbusy] at h
      rw [TransferEnv.files_makeDirs hdirs]
      exact hbefore.elim h id
    · rw [if_neg (by simp [hbusy])] at h
      rw [hfiles]
      exact Wanted.stored_transfer hop (h hbefore) hr
    · simp [refused, TransferEnv.recordFail] at hok

/-- What the rest of the body does with an answer. -/
theorem settle_spec (h : (env.settle args st call w o).success = true) :
    (env.settle args st call w o).lib = w ∧ st.success = true ∧ refused o = false ∧
      (env.handling args w call o ≠ .mismatch → (env.settle args st call w o).failed =
        st.failed + o.failed) := by
  rw [settle] at h ⊢
  cases hhandling : env.handling args w call o with
  | passed => simp_all
  | mismatch => simp_all
  | recorded path =>
    rw [hhandling] at h
    simp only at h ⊢
    split_ifs at h ⊢ <;> simp_all [failStep]

/-- What a step has done that left the flag set. -/
theorem fileStep_success (hended : st.ended = true → st.success = false)
    (h : (env.fileStep args st item).success = true) :
    st.success = true ∧
      (env.prepare args st.lib item.1 item.2 = .skipped ∧ env.fileStep args st item = st ∨
        env.prepare args st.lib item.1 item.2 = .noTarget ∧
          env.fileStep args st item = { st with failed := st.failed + 1, alerts := st.alerts + 1 } ∨
        ∃ call finding o w, env.prepare args st.lib item.1 item.2 = .ready call ∧
          env.lookup.duplicateChecks st.lib call = .ok finding ∧
          env.perform st.lib call (env.decision st.lib call finding) = (.ok o, w) ∧
          env.fileStep args st item = env.settle args st call w o) := by
  rw [fileStep] at h ⊢
  by_cases hend : st.ended = true
  · rw [if_pos hend] at h
    simp [hended hend] at h
  rw [if_neg hend] at h ⊢
  cases hprepare : env.prepare args st.lib item.1 item.2 with
  | skipped =>
    rw [hprepare] at h
    exact ⟨h, .inl ⟨rfl, rfl⟩⟩
  | broken =>
    rw [hprepare] at h
    simp [failStep] at h
  | unrecognised =>
    rw [hprepare] at h
    simp only at h
    split at h <;> simp [failStep] at h
  | noTarget =>
    rw [hprepare] at h
    exact ⟨h, .inr (.inl ⟨rfl, rfl⟩)⟩
  | noDirectory =>
    rw [hprepare] at h
    simp at h
  | ready call =>
    rw [hprepare] at h
    simp only at h ⊢
    rcases hdo : env.doTransferFile st.lib call with ⟨e | o, w⟩
    · rw [hdo] at h
      simp [failStep] at h
    · rw [hdo] at h
      refine ⟨(settle_spec h).2.1, .inr (.inr ?_)⟩
      rw [TransferEnv.doTransferFile] at hdo
      cases hchecks : env.lookup.duplicateChecks st.lib call with
      | error e =>
        rw [hchecks] at hdo
        cases hdo
      | ok finding =>
        rw [hchecks] at hdo
        exact ⟨call, finding, o, w, rfl, hchecks, hdo, rfl⟩

/-- A step that fails clears the flag. -/
theorem success_of_fails (hended : st.ended = true → st.success = false)
    (h : env.Fails args st item) : (env.fileStep args st item).success = false := by
  by_contra hsuccess
  rw [Bool.not_eq_false] at hsuccess
  obtain ⟨_, ⟨hprepare, _⟩ | ⟨hprepare, _⟩ | ⟨call, finding, o, w, hprepare, hchecks, hdo, hstep⟩⟩ :=
    fileStep_success hended hsuccess
  · rwa [Fails, hprepare] at h
  · rwa [Fails, hprepare] at h
  · rw [Fails, hprepare] at h
    rw [hstep] at hsuccess
    have hrefused := refused_of_fails (h finding hchecks) hdo
    simp [(settle_spec hsuccess).2.2.1] at hrefused

/-- **A step of the loop** that leaves the flag set has the wanted content stored, if this was
its turn or it was stored before. -/
theorem stored_fileStep (hop : args.operation ≠ .softlink)
    (hended : st.ended = true → st.success = false) (hcond : env.StepKeeps args d st item)
    (hbefore : (env.Fails args st item ∨ env.Turn args d st.lib item) ∨
      (st.success = true → d.Stored st.lib.files))
    (hsuccess : (env.fileStep args st item).success = true) :
    d.Stored (env.fileStep args st item).lib.files := by
  have hfails : ¬env.Fails args st item := by
    intro h
    simp [success_of_fails hended h] at hsuccess
  obtain ⟨hset, hdone⟩ := fileStep_success hended hsuccess
  have hkeeps := (hcond hset).resolve_left hfails
  have hturn : env.Turn args d st.lib item ∨ d.Stored st.lib.files := by
    rcases hbefore with (h | h) | h
    · exact absurd h hfails
    · exact .inl h
    · exact .inr (h hset)
  rw [Keeps] at hkeeps
  rcases hdone with ⟨hprepare, hstep⟩ | ⟨hprepare, hstep⟩ |
    ⟨call, finding, o, w, hprepare, hchecks, hdo, hstep⟩
  · rw [hprepare] at hkeeps
    rw [hstep]
    exact hturn.elim hkeeps id
  · rw [hprepare] at hkeeps
    rw [hstep]
    exact hturn.elim hkeeps id
  · rw [hprepare] at hkeeps
    rw [hstep] at hsuccess ⊢
    obtain ⟨hlib, _, hrefused, _⟩ := settle_spec hsuccess
    rw [hlib]
    have hcall : call.operation = args.operation := by
      obtain ⟨m, distPath, backend, _, rfl⟩ := prepare_ready hprepare
      rfl
    exact stored_perform (by rwa [hcall]) (hkeeps finding hchecks) hturn hdo hrefused

/-- The loop is over only where the flag is cleared. -/
theorem ended_fileStep (hended : st.ended = true → st.success = false)
    (h : (env.fileStep args st item).ended = true) :
    (env.fileStep args st item).success = false := by
  by_contra hsuccess
  rw [Bool.not_eq_false] at hsuccess
  obtain ⟨hset, hdone⟩ := fileStep_success hended hsuccess
  have hrunning : ¬st.ended = true := fun hend => by simp [hended hend] at hset
  rcases hdone with ⟨_, hstep⟩ | ⟨_, hstep⟩ | ⟨call, finding, o, w, _, _, _, hstep⟩
  · exact hrunning (by rwa [hstep] at h)
  · exact hrunning (by rwa [hstep] at h)
  · rw [hstep, settle] at h
    simp only at h
    split at h
    · exact hrunning h
    · exact hrunning h
    · split_ifs at h <;> exact hrunning h

/-- No failure is counted while the flag is set, where no step counts one beside it. -/
theorem failed_fileStep (hended : st.ended = true → st.success = false)
    (hcond : env.Counts args st item) (hbefore : st.success = true → st.failed = 0)
    (hsuccess : (env.fileStep args st item).success = true) :
    (env.fileStep args st item).failed = 0 := by
  obtain ⟨hset, hdone⟩ := fileStep_success hended hsuccess
  obtain ⟨htarget, hmismatch⟩ := hcond hset
  rcases hdone with ⟨_, hstep⟩ | ⟨hprepare, _⟩ | ⟨call, finding, o, w, hprepare, hchecks, hdo, hstep⟩
  · rw [hstep]
    exact hbefore hset
  · exact absurd hprepare htarget
  · rw [hstep] at hsuccess ⊢
    obtain ⟨_, _, hrefused, hfailed⟩ := settle_spec hsuccess
    have hdo' : env.doTransferFile st.lib call = (.ok o, w) := by
      rw [TransferEnv.doTransferFile, hchecks]
      exact hdo
    rw [hfailed (hmismatch call hprepare o w hdo'), hbefore hset]
    simp only [refused, decide_eq_false_iff_not, not_or] at hrefused
    omega

/-! ## The loop -/

variable {items : List (Text × Option MediaInfo)}

/-- A run of the loop that leaves the flag set has the wanted content stored, if its turn came
or it was stored before. -/
theorem stored_loop (hop : args.operation ≠ .softlink)
    (hcond : Run.Along (env.fileStep args) (env.StepKeeps args d) { lib := w } items)
    (hbefore : Run.Sometime (env.fileStep args)
        (fun st item => env.Fails args st item ∨ env.Turn args d st.lib item) { lib := w } items ∨
      d.Stored w.files)
    (hsuccess : (items.foldl (env.fileStep args) { lib := w }).success = true) :
    d.Stored (items.foldl (env.fileStep args) { lib := w }).lib.files := by
  let P (st : LoopState) : Prop := st.ended = true → st.success = false
  let Q (st : LoopState) : Prop := st.success = true → d.Stored st.lib.files
  have hP : P { lib := w } := by
    intro hend
    cases hend
  have hstep : ∀ st item, P st → env.StepKeeps args d st item → P (env.fileStep args st item) :=
    fun st item hst _ => ended_fileStep hst
  have hkeep : ∀ st item, P st → env.StepKeeps args d st item → Q st →
      Q (env.fileStep args st item) :=
    fun st item hst hitem hQ => stored_fileStep hop hst hitem (.inr hQ)
  suffices hQ : Q (items.foldl (env.fileStep args) { lib := w }) from hQ hsuccess
  rcases hbefore with hturn | hstored
  · refine Run.of_sometime P Q hP hcond hturn hstep ?_ hkeep
    intro st item hst hitem h
    exact stored_fileStep hop hst hitem (.inl h)
  · have hboth : P { lib := w } ∧ Q { lib := w } := ⟨hP, fun _ => hstored⟩
    refine (Run.invariant_along (fun st => P st ∧ Q st) hboth hcond ?_).2
    intro st item hst hitem
    exact ⟨hstep st item hst.1 hitem, hkeep st item hst.1 hitem hst.2⟩

/-- A run of the loop that leaves the flag set has counted no failure, where no step counts one
beside it. -/
theorem failed_loop (hcond : Run.Along (env.fileStep args) (env.Counts args) { lib := w } items)
    (hsuccess : (items.foldl (env.fileStep args) { lib := w }).success = true) :
    (items.foldl (env.fileStep args) { lib := w }).failed = 0 := by
  have hinv : ((items.foldl (env.fileStep args) { lib := w }).ended = true →
        (items.foldl (env.fileStep args) { lib := w }).success = false) ∧
      ((items.foldl (env.fileStep args) { lib := w }).success = true →
        (items.foldl (env.fileStep args) { lib := w }).failed = 0) := by
    refine Run.invariant_along (fun st : LoopState =>
      (st.ended = true → st.success = false) ∧ (st.success = true → st.failed = 0)) ?_ hcond ?_
    · exact ⟨fun h => (by cases h), fun _ => rfl⟩
    · intro st item hst hitem
      exact ⟨ended_fileStep hst.1, failed_fileStep hst.1 hitem hst.2⟩
  exact hinv.2 hsuccess

end LoopEnv

/-! ## The task -/

namespace PipelineEnv

variable (env : PipelineEnv) (task : TransferTask) (backend : Option Backend) (d : Wanted)

/-- The condition on a path: the steps of its loop keep the wanted content, and so does the
removal of the directory. -/
def PathKeeps (st : TaskState) (path : Text) : Prop :=
  match env.findItems st.lib task backend path with
  | .done _ => True
  | .items args items =>
    Run.Along (env.fileStep args) (env.StepKeeps args d) { lib := st.lib } items ∧
      let w := (items.foldl (env.fileStep args) { lib := st.lib }).lib
      env.removes args (items.foldl (env.fileStep args) { lib := st.lib }) = true →
        d.Stored w.files → ∃ l, d.Kept w.files l ∧
          l ∉ env.namesBelow w args.inPath ∧ w.files.follow l ∉ env.namesBelow w args.inPath

/-- The wanted content has its turn on the path, or is stored already, or the path fails. -/
def PathReaches (st : TaskState) (path : Text) : Prop :=
  d.Stored st.lib.files ∨ env.finishFails path = true ∨
    match env.findItems st.lib task backend path with
    | .done success => success = false
    | .items args items =>
      Run.Sometime (env.fileStep args)
        (fun st item => env.Fails args st item ∨ env.Turn args d st.lib item)
        { lib := st.lib } items

/-- No step of the path counts a failure beside the flag. -/
def PathCounts (st : TaskState) (path : Text) : Prop :=
  match env.findItems st.lib task backend path with
  | .done _ => True
  | .items args items => Run.Along (env.fileStep args) (env.Counts args) { lib := st.lib } items

/-- The media files of a torrent that are not to be ignored. -/
def mediaFiles (w : LibraryState) : List Loc :=
  (env.dataOf w task).filter fun l => isMediaFile l.2 && !env.ignored l.2

/-- The condition on a task. -/
structure Lossless (library : Loc → Prop) (w : LibraryState) : Prop where
  keeps : ∀ f ∈ env.mediaFiles task w, ∀ c, w.files.read f = some c →
    Run.Along (env.pathStep task backend)
      (env.PathKeeps task backend ⟨library, env.dataOf w task, f, c⟩) { lib := w } task.filePaths
  reaches : ∀ f ∈ env.mediaFiles task w, ∀ c, w.files.read f = some c →
    Run.Sometime (env.pathStep task backend)
      (env.PathReaches task backend ⟨library, env.dataOf w task, f, c⟩) { lib := w } task.filePaths
  counts : Run.Along (env.pathStep task backend) (env.PathCounts task backend) { lib := w }
    task.filePaths

variable {env task backend d} {w : LibraryState} {st : TaskState} {path : Text}

/-- The loop of a path has the operation of its task. -/
theorem operation_findItems {args : LoopArgs} {items : List (Text × Option MediaInfo)}
    (h : env.findItems w task backend path = .items args items) :
    args.operation = operationOf task.operation := by
  rw [findItems] at h
  split at h
  · cases h
  split at h
  · cases h
  split at h
  · cases h
  · cases h
  · simp only at h
    generalize (if task.downloader = true then _ else _) = kept at h
    split at h
    · cases h
    split at h
    · cases h
    · cases h
    · obtain ⟨rfl, _⟩ := Found.items.inj h
      rfl

/-- **A path of the task** that succeeds has the wanted content stored, if its turn came or it
was stored before. -/
theorem stored_pathStep (hop : operationOf task.operation ≠ .softlink)
    (hcond : env.PathKeeps task backend d st path)
    (hbefore : env.PathReaches task backend d st path ∨ (st.success = true → d.Stored st.lib.files))
    (hsuccess : (env.pathStep task backend st path).success = true) :
    d.Stored (env.pathStep task backend st path).lib.files := by
  simp only [pathStep, Bool.and_eq_true, Bool.not_eq_true'] at hsuccess ⊢
  obtain ⟨⟨hset, hresult⟩, hfinish⟩ := hsuccess
  rw [PathKeeps] at hcond
  rw [PathReaches, hfinish] at hbefore
  rw [transferMedia] at hresult ⊢
  cases hfind : env.findItems st.lib task backend path with
  | done success =>
    rw [hfind] at hresult hbefore
    simp only at hresult hbefore ⊢
    rcases hbefore with (h | h | h) | h
    · exact h
    · cases h
    · simp [hresult] at h
    · exact h hset
  | items args items =>
    rw [hfind] at hresult hbefore hcond
    have hargs := operation_findItems hfind
    obtain ⟨hsteps, hremoval⟩ := hcond
    simp only at hresult hbefore hremoval ⊢
    have hloop : (items.foldl (env.fileStep args) { lib := st.lib }).success = true := by
      rw [postProcess] at hresult
      split_ifs at hresult
      · exact hresult
      · exact hresult
    have hstored : d.Stored (items.foldl (env.fileStep args) { lib := st.lib }).lib.files := by
      refine LoopEnv.stored_loop (by rwa [hargs]) hsteps ?_ hloop
      rcases hbefore with (h | h | h) | h
      · exact .inr h
      · cases h
      · exact .inl h
      · exact .inr (h hset)
    rw [postProcess]
    split_ifs with hremoves
    · exact hstored
    · obtain ⟨l, hkept, hnames⟩ := hremoval hremoves hstored
      exact ⟨l, Wanted.kept_still hkept (still_unlinkAll hnames.1 hnames.2)⟩
    · exact hstored

/-- A path that succeeds has counted no failure. -/
theorem failed_transferMedia (hcond : env.PathCounts task backend st path)
    (hsuccess : (env.transferMedia st.lib task backend path).success = true) :
    (env.transferMedia st.lib task backend path).failed = 0 := by
  rw [PathCounts] at hcond
  rw [transferMedia] at hsuccess ⊢
  cases hfind : env.findItems st.lib task backend path with
  | done success => rfl
  | items args items =>
    rw [hfind] at hsuccess hcond
    simp only [postProcess] at hsuccess ⊢
    have hloop := LoopEnv.failed_loop hcond
    split_ifs at hsuccess ⊢
    · exact hloop hsuccess
    · exact hloop hsuccess

/-- A task that succeeds with the operation `move` has the wanted content stored. -/
theorem stored_process {library : Loc → Prop} {f : Loc} {c : Content}
    (h : ∀ backend, env.resolveBackend task.dstBackendId = .ok backend →
      env.Lossless task backend library w)
    (hop : task.operation = of "move") (hf : f ∈ env.mediaFiles task w)
    (hc : w.files.read f = some c) (hsuccess : (env.process w task).success = true) :
    Wanted.Stored ⟨library, env.dataOf w task, f, c⟩ (env.process w task).lib.files := by
  have hmove : operationOf task.operation ≠ .softlink := by
    rw [hop]
    decide
  rw [process] at hsuccess ⊢
  split_ifs at hsuccess ⊢
  cases hbackend : env.resolveBackend task.dstBackendId with
  | error e =>
    rw [hbackend] at hsuccess
    cases hsuccess
  | ok backend =>
    rw [hbackend] at hsuccess
    obtain ⟨hkeeps, hreaches, _⟩ := h backend hbackend
    let d : Wanted := ⟨library, env.dataOf w task, f, c⟩
    refine Run.of_sometime (fun _ => True)
      (fun st : TaskState => st.success = true → d.Stored st.lib.files) trivial
      (hkeeps f hf c hc) (hreaches f hf c hc) (fun _ _ _ _ => trivial) ?_ ?_ hsuccess
    · intro st path _ hpath hreach
      exact stored_pathStep hmove hpath (.inl hreach)
    · intro st path _ hpath hstored
      exact stored_pathStep hmove hpath (.inr hstored)

/-- The paths of a task that succeed have counted no failure. -/
theorem failed_process {library : Loc → Prop}
    (h : ∀ backend, env.resolveBackend task.dstBackendId = .ok backend →
      env.Lossless task backend library w) :
    ∀ r ∈ (env.process w task).results, r.success = true → r.failed = 0 := by
  rw [process]
  split_ifs
  · intro r hr
    cases hr
  cases hbackend : env.resolveBackend task.dstBackendId with
  | error e =>
    intro r hr
    cases hr
  | ok backend =>
    refine Run.invariant_along
      (fun st : TaskState => ∀ r ∈ st.results, r.success = true → r.failed = 0) ?_
      (h backend hbackend).counts ?_
    · intro r hr
      cases hr
    · intro st path hst hpath r hr
      rcases List.mem_append.mp hr with hr | hr
      · exact hst r hr
      · obtain rfl := List.mem_singleton.mp hr
        exact failed_transferMedia hpath

/-- Local files, one library directory, every file an episode, and nothing that fails. -/
def plainPipeline : PipelineEnv where
  toLoopEnv := LoopEnv.plainLoop (of "e1")
  pathLocked _ := false
  incomplete _ _ := false
  minFilesize := 0
  obviousExtra _ := false
  ignoredPath _ := false
  ignoredFile _ := false
  blacklisted _ := false
  identify _ _ _ files := .ok (files.map fun file => (file, some LoopEnv.firstEpisode))
  rmtreeFails _ := false
  finishFails _ := false
  resolveBackend _ := .ok none
  libraryDone _ := false

/-- A download of one episode. -/
def downloaded : LibraryState :=
  LoopEnv.libraryWith (noFiles.write (0, of "/dl/e1.mkv") ⟨1, 10⟩)

/-- The task to move it to a directory. -/
def moveTo (dir : Text) : TransferTask where
  filePaths := [of "/dl/e1.mkv"]
  operation := of "move"
  targetDir := dir

end PipelineEnv

end WolfNas
