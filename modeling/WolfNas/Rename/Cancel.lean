import WolfNas.Lib.Process
import WolfNas.Rename.Storage

/-!
# Cancelling a rename job

A job is cancelled by a write to its row.  Its workers read the row before they start, before each
item and at the end, and write to it without looking again; a cancellation that falls between such
a reading and what follows it is lost.  What the job's lock answers is left open.

## Main definitions

* `JobTable` — the row of a job, the items that are still planned, and those that were started.
* `JobCall`, `JobTable.exec` — the single steps on it.
* `RenameRace.runJob`, `RenameRace.cancelJob`, `RenameRace.recoverJob` — the calls on a job.
* `RenameRace.Final` — a job that was cancelled stays so, and starts no item.
* `RenameRace.Unraced` — the condition on a step.

## Main results

* `RenameRace.inv_call` — what every step under the condition keeps.
* `RenameRace.cancel_final` — a run of such steps starts no item of a cancelled job.
-/

namespace WolfNas

/-- The row of a job, its planned items, and the items that were started. -/
structure JobTable where
  status : JobStatus := .planned
  planned : List ℕ := []
  started : List ℕ := []

/-- A single step. -/
inductive JobCall
  | readStatus
  | acquire
  | setStatus (status : JobStatus)
  | listPlanned
  | executeItem (id : ℕ)
  | extend
  | finishAssets
  | refreshMediaServer
  | refreshCounters
  | listRunning
  | recoverItems
  deriving DecidableEq

/-- The answer to a step; none is an exception. -/
@[reducible] def JobCall.Reply : JobCall → Type
  | .readStatus => Option JobStatus
  | .acquire | .extend | .listRunning => Option Bool
  | .listPlanned => Option (List ℕ)
  | .setStatus _ | .executeItem _ | .finishAssets | .refreshMediaServer | .refreshCounters
  | .recoverItems => Option Unit

/-- The circumstances of a step: whether it raises, before or after it takes effect, and what the
lock answers. -/
structure JobTurn where
  raises : Bool := false
  effect : Bool := true
  lock : Bool := true

/-- The job is cancelled, or will be. -/
def JobStatus.isOver (status : JobStatus) : Bool := status = .cancelling || status = .cancelled

namespace JobTable

variable (s : JobTable)

/-- The step takes effect. -/
def after : JobCall → JobTable
  | .setStatus status => { s with status }
  | .executeItem id => { s with planned := s.planned.filter (· ≠ id) }
  | _ => s

/-- What the step answers where it does not raise. -/
def answer (w : JobTurn) : (c : JobCall) → c.Reply
  | .readStatus => some s.status
  | .acquire | .extend => some w.lock
  | .listRunning => some (s.status = .running)
  | .listPlanned => some s.planned
  | .setStatus _ | .executeItem _ | .finishAssets | .refreshMediaServer | .refreshCounters
  | .recoverItems => some ()

/-- The answer of a step that raises. -/
def raised : (c : JobCall) → c.Reply
  | .readStatus | .acquire | .extend | .listRunning | .listPlanned | .setStatus _ | .executeItem _
  | .finishAssets | .refreshMediaServer | .refreshCounters | .recoverItems => none

/-- An item that is started is noted. -/
def noteStarted : JobCall → JobTable
  | .executeItem id => { s with started := s.started ++ [id] }
  | _ => s

/-- One step. -/
def exec (w : JobTurn) (c : JobCall) : JobTable × c.Reply :=
  (if w.raises && !w.effect then s.noteStarted c else (s.noteStarted c).after c,
    if w.raises then raised c else s.answer w c)

end JobTable

/-- The calls on a job. -/
inductive JobOp
  | run | cancel | recover
  deriving DecidableEq

/-- What is known of a call: it has written that the job runs, it has caught an exception, it will
start an item or write the row without another look, and it knows that the job is cancelled. -/
structure JobNote where
  running : Bool := false
  failing : Bool := false
  about : Bool := false
  sure : Bool := false

namespace RenameRace

/-- Part of a call on a job. -/
abbrev JobProcess (α : Type) := Process JobCall JobCall.Reply α

/-- A single step. -/
def ask (c : JobCall) : JobProcess c.Reply := Process.ask c

/-- The handler of `run_job`. -/
def failJob : JobProcess (Option Bool) := do
  match ← ask .refreshCounters with
  | none => return none
  | some _ =>
    let _ ← ask (.setStatus .failed)
    return none

/-- `run_job`, from the end of its loop on. -/
def finishJob (lockLost : Bool) : JobProcess (Option Bool) := do
  match ← ask .refreshMediaServer with
  | none => failJob
  | some _ =>
    match ← ask .readStatus with
    | none => failJob
    | some status =>
      match ← ask .refreshCounters with
      | none => failJob
      | some _ =>
        match ← ask (.setStatus (if lockLost then .interrupted
          else if status.isOver then .cancelled else .completed)) with
        | none => failJob
        | some _ => return none

/-- `run_job`, once its loop has ended; what goes wrong with the directories is swallowed. -/
def leaveItems (lockLost : Bool) : JobProcess (Option Bool) :=
  if lockLost then finishJob true
  else do
    let _ ← ask .finishAssets
    finishJob false

/-- The loop of `run_job`. -/
def runItems : List ℕ → JobProcess (Option Bool)
  | [] => leaveItems false
  | id :: ids => do
    match ← ask .readStatus with
    | none => failJob
    | some status =>
      if status.isOver then leaveItems false
      else
        match ← ask (.executeItem id) with
        | none => failJob
        | some _ =>
          match ← ask .extend with
          | none => failJob
          | some kept => if kept then runItems ids else leaveItems true

/-- `run_job`, once the lock is held. -/
def runBody : JobProcess (Option Bool) := do
  match ← ask (.setStatus .running) with
  | none => failJob
  | some _ =>
    match ← ask .listPlanned with
    | none => failJob
    | some ids => runItems ids

/-- `run_job`. -/
def runJob : JobProcess (Option Bool) := do
  match ← ask .readStatus with
  | none => return none
  | some status =>
    if status = .planned then
      match ← ask .acquire with
      | none => return none
      | some free => if free then runBody else return none
    else return none

/-- `cancel_job`; none where it raises. -/
def cancelJob : JobProcess (Option Bool) := do
  match ← ask .readStatus with
  | none => return none
  | some status =>
    if status = .planned then
      match ← ask (.setStatus .cancelled) with
      | none => return none
      | some _ => return some true
    else if status = .running then
      match ← ask (.setStatus .cancelling) with
      | none => return none
      | some _ => return some true
    else return some false

/-- `recover_interrupted_jobs`, for the job. -/
def recoverJob : JobProcess (Option Bool) := do
  match ← ask .listRunning with
  | none => return none
  | some found =>
    if found then
      match ← ask .acquire with
      | none => return none
      | some free =>
        if free then
          match ← ask .recoverItems with
          | none => return none
          | some _ =>
            match ← ask (.setStatus .interrupted) with
            | none => return none
            | some _ =>
              let _ ← ask .refreshCounters
              return none
        else return none
    else return none

/-- A call. -/
def program : JobOp → JobProcess (Option Bool)
  | .run => runJob
  | .cancel => cancelJob
  | .recover => recoverJob

/-! ## What is known of a call -/

/-- An exception: `run_job` catches one. -/
def caught (l : JobNote) : JobNote := { l with about := l.running && !l.failing, failing := true }

/-- What a step of `run_job` adds. -/
def notedRun (l : JobNote) : (c : JobCall) → c.Reply → JobNote
  | .readStatus, some status =>
    if l.running then
      { l with
        about := l.about || !status.isOver
        sure := l.sure || status.isOver }
    else { l with about := status = .planned }
  | .acquire, some free => { l with about := free }
  | .setStatus _, some _ => { l with running := true, about := false }
  | .setStatus _, none => caught { l with running := true }
  | .executeItem _, some _ => { l with about := false }
  | .extend, some kept => { l with about := !kept }
  | .listPlanned, some _ | .refreshMediaServer, some _ | .refreshCounters, some _
  | .finishAssets, _ => l
  | .listRunning, _ | .recoverItems, _ => l
  | .readStatus, none | .acquire, none | .executeItem _, none | .extend, none | .listPlanned, none
  | .refreshMediaServer, none | .refreshCounters, none => caught l

/-- What a step of `cancel_job` adds. -/
def notedCancel (l : JobNote) : (c : JobCall) → c.Reply → JobNote
  | .setStatus _, some _ => { l with sure := true }
  | _, _ => l

/-- What a step of `recover_interrupted_jobs` adds. -/
def notedRecover (l : JobNote) : (c : JobCall) → c.Reply → JobNote
  | .listRunning, some found => { l with about := found }
  | .acquire, some free => { l with about := free }
  | .acquire, none | .recoverItems, none | .setStatus _, _ => { l with about := false }
  | _, _ => l

/-- What a step adds to what is known of a call. -/
def noted : JobOp → JobNote → (c : JobCall) → c.Reply → JobNote
  | .run => notedRun
  | .cancel => notedCancel
  | .recover => notedRecover

/-- The calls on one job; a restart ends calls, which then take no more turns. -/
def shop : Workshop JobTable JobOp JobTurn Empty JobNote JobCall JobCall.Reply (Option Bool) where
  exec s w c := some (s.exec w c)
  drift _ e := e.elim
  program := program
  first _ := {}
  noted := noted

/-- The steps of a call, by what is known of it. -/
def Allowed (op : JobOp) (l : JobNote) : JobCall → Prop
  | .setStatus status =>
    match op with
    | .run => (status = .cancelled ∧ l.sure) ∨ (status.isOver = false ∧ l.about)
    | .cancel => status.isOver
    | .recover => status.isOver = false ∧ l.about
  | .acquire => l.about
  | .executeItem _ => op = .run ∧ l.about
  | _ => True

/-- A call that ends as a cancellation knows that the job is cancelled. -/
def Ended (op : JobOp) (l : JobNote) (r : Option Bool) : Prop := op = .cancel → r = some true → l.sure

/-- The rest of a call obeys, from what is known of it. -/
def Obeys (op : JobOp) (l : JobNote) (x : JobProcess (Option Bool)) : Prop :=
  Process.Obeys (Allowed op) (noted op) (Ended op) l x

variable {l : JobNote}

/-- Only a cancellation says more. -/
theorem ended_run (r : Option Bool) : Ended .run l r := by
  intro hop
  cases hop

theorem obeys_failJob (habout : l.about) : Obeys .run l failJob := by
  refine ⟨trivial, fun r => ?_⟩
  cases r with
  | none => exact ended_run _
  | some _ => exact ⟨.inr ⟨rfl, habout⟩, fun _ => ended_run _⟩

/-- After an exception that `run_job` catches. -/
theorem obeys_caught (hrunning : l.running) (hfailing : l.failing = false) :
    Obeys .run (caught l) failJob :=
  obeys_failJob (by simp [caught, hrunning, hfailing])

theorem obeys_finishJob {lockLost : Bool} (hrunning : l.running) (hfailing : l.failing = false)
    (habout : lockLost → l.about) : Obeys .run l (finishJob lockLost) := by
  refine ⟨trivial, fun r => ?_⟩
  cases r with
  | none => exact obeys_caught hrunning hfailing
  | some _ =>
    refine ⟨trivial, fun r => ?_⟩
    cases r with
    | none => exact obeys_caught hrunning hfailing
    | some status =>
      have hnoted : noted .run l .readStatus (some status) =
          { l with
            about := l.about || !status.isOver
            sure := l.sure || status.isOver } := if_pos hrunning
      change Process.Obeys _ _ _ (noted .run l .readStatus (some status)) _
      rw [hnoted]
      refine ⟨trivial, fun r => ?_⟩
      cases r with
      | none => exact obeys_caught hrunning hfailing
      | some _ =>
        refine ⟨?_, fun r => ?_⟩
        · cases lockLost with
          | true => exact .inr ⟨rfl, by simp [noted, notedRun, habout rfl]⟩
          | false =>
            cases hover : status.isOver with
            | true => exact .inl ⟨rfl, by simp [noted, notedRun]⟩
            | false => exact .inr ⟨rfl, by simp [noted, notedRun]⟩
        · cases r with
          | none => exact obeys_failJob (by simp [noted, notedRun, caught, hfailing])
          | some _ => exact ended_run _

theorem obeys_leaveItems {lockLost : Bool} (hrunning : l.running) (hfailing : l.failing = false)
    (habout : lockLost → l.about) : Obeys .run l (leaveItems lockLost) := by
  cases lockLost with
  | true => exact obeys_finishJob hrunning hfailing habout
  | false => exact ⟨trivial, fun r => obeys_finishJob hrunning hfailing habout⟩

theorem obeys_runItems (ids : List ℕ) (hrunning : l.running) (hfailing : l.failing = false) :
    Obeys .run l (runItems ids) := by
  induction ids generalizing l with
  | nil => exact obeys_leaveItems hrunning hfailing (by simp)
  | cons id ids ih =>
    refine ⟨trivial, fun r => ?_⟩
    cases r with
    | none => exact obeys_caught hrunning hfailing
    | some status =>
      have hnoted : noted .run l .readStatus (some status) =
          { l with
            about := l.about || !status.isOver
            sure := l.sure || status.isOver } := if_pos hrunning
      change Process.Obeys _ _ _ (noted .run l .readStatus (some status)) (if _ then _ else _)
      rw [hnoted]
      cases status.isOver with
      | true =>
        change Obeys .run _ (leaveItems false)
        refine obeys_leaveItems ?_ ?_ ?_
        · exact hrunning
        · exact hfailing
        · simp
      | false =>
        refine ⟨⟨rfl, by simp⟩, fun r => ?_⟩
        cases r with
        | none => exact obeys_caught hrunning hfailing
        | some _ =>
          refine ⟨trivial, fun r => ?_⟩
          cases r with
          | none => exact obeys_caught hrunning hfailing
          | some kept =>
            cases kept with
            | true => exact ih hrunning hfailing
            | false =>
              change Obeys .run _ (leaveItems true)
              refine obeys_leaveItems ?_ ?_ ?_
              · exact hrunning
              · exact hfailing
              · exact fun _ => rfl

theorem obeys_runJob : Obeys .run {} runJob := by
  refine ⟨trivial, fun r => ?_⟩
  cases r with
  | none => exact ended_run _
  | some status =>
    by_cases hplanned : status = .planned
    · subst hplanned
      refine ⟨rfl, fun r => ?_⟩
      cases r with
      | none => exact ended_run _
      | some free =>
        cases free with
        | false => exact ended_run _
        | true =>
          refine ⟨.inr ⟨rfl, rfl⟩, fun r => ?_⟩
          cases r with
          | none => exact obeys_failJob rfl
          | some _ =>
            refine ⟨trivial, fun r => ?_⟩
            cases r with
            | none => exact obeys_caught rfl rfl
            | some ids => exact obeys_runItems ids rfl rfl
    · change Process.Obeys _ _ _ _ (if _ then _ else _)
      rw [if_neg hplanned]
      exact ended_run _

theorem obeys_cancelJob : Obeys .cancel {} cancelJob := by
  refine ⟨trivial, fun r => ?_⟩
  cases r with
  | none =>
    intro _ hr
    cases hr
  | some status =>
    change Process.Obeys _ _ _ _ (if _ then _ else _)
    split_ifs
    · refine ⟨rfl, fun r => ?_⟩
      cases r with
      | none =>
        intro _ hr
        cases hr
      | some _ => exact fun _ _ => rfl
    · refine ⟨rfl, fun r => ?_⟩
      cases r with
      | none =>
        intro _ hr
        cases hr
      | some _ => exact fun _ _ => rfl
    · intro _ hr
      cases hr

theorem obeys_recoverJob : Obeys .recover {} recoverJob := by
  have hended : ∀ (l : JobNote) r, Ended .recover l r := by
    intro l r hop
    cases hop
  refine ⟨trivial, fun r => ?_⟩
  cases r with
  | none => exact hended _ _
  | some found =>
    cases found with
    | false => exact hended _ _
    | true =>
      refine ⟨rfl, fun r => ?_⟩
      cases r with
      | none => exact hended _ _
      | some free =>
        cases free with
        | false => exact hended _ _
        | true =>
          refine ⟨trivial, fun r => ?_⟩
          cases r with
          | none => exact hended _ _
          | some _ =>
            refine ⟨⟨rfl, rfl⟩, fun r => ?_⟩
            cases r with
            | none => exact hended _ _
            | some _ => exact ⟨trivial, fun _ => hended _ _⟩

theorem obeys_program (op : JobOp) : Obeys op {} (program op) := by
  cases op with
  | run => exact obeys_runJob
  | cancel => exact obeys_cancelJob
  | recover => exact obeys_recoverJob

/-! ## Steps of a cancelled job -/

/-- The job is cancelled, or will be. -/
def Over (s : JobTable) : Prop := s.status.isOver

instance (s : JobTable) : Decidable (Over s) := by
  unfold Over
  infer_instance

/-- The condition on a step: a cancellation is written while no call is about to start an item or
to write the row without another look, and in a cancelled job no step of `run_job` raises and no
lock is lost. -/
def Unraced (s : JobTable) (ns : List (JobOp × JobNote)) (w : JobTurn) (_ : ℕ) (op : JobOp)
    (_ : JobNote) (c : JobCall) : Prop :=
  match op, c with
  | .cancel, .setStatus _ => ∀ n ∈ ns, n.2.about = false
  | .run, c => Over s → w.raises = false ∧ (c = .extend → w.lock = true)
  | _, _ => True

instance (s : JobTable) (ns : List (JobOp × JobNote)) (w : JobTurn) (i : ℕ) (op : JobOp)
    (l : JobNote) (c : JobCall) : Decidable (Unraced s ns w i op l c) := by
  unfold Unraced
  split <;> infer_instance

/-- What every step keeps: where the job is cancelled, no call is about to do anything to it. -/
structure Inv (s : JobTable) (ns : List (JobOp × JobNote)) : Prop where
  still : Over s → ∀ n ∈ ns, n.2.about = false
  sure : ∀ n ∈ ns, n.2.sure → Over s

variable {s : JobTable} {ns : List (JobOp × JobNote)} {i : ℕ} {op : JobOp} {w : JobTurn}
  {c : JobCall}

/-- What a cancelled job keeps under a call that is about to do nothing. -/
theorem over_call (hover : Over s) (habout : l.about = false) (hallowed : Allowed op l c) :
    Over (s.exec w c).1 ∧ (s.exec w c).1.started = s.started := by
  cases c with
  | setStatus status =>
    have hstatus : status.isOver := by
      cases op with
      | run =>
        rcases hallowed with ⟨rfl, -⟩ | ⟨-, hwill⟩
        · rfl
        · exact absurd (habout.symm.trans hwill) (by simp)
      | cancel => exact hallowed
      | recover => exact absurd (habout.symm.trans hallowed.2) (by simp)
    simp only [JobTable.exec]
    split_ifs
    · exact ⟨hover, rfl⟩
    · exact ⟨hstatus, rfl⟩
  | executeItem id => exact absurd (habout.symm.trans hallowed.2) (by simp)
  | readStatus | acquire | listPlanned | extend | finishAssets | refreshMediaServer
  | refreshCounters | listRunning | recoverItems =>
    simp only [JobTable.exec, JobTable.noteStarted, JobTable.after, ite_self]
    exact ⟨hover, trivial⟩

/-- A call on a cancelled job is still about to do nothing. -/
theorem about_call (hover : Over s) (habout : l.about = false) (hallowed : Allowed op l c)
    (hunraced : Unraced s ns w i op l c) : (noted op l c (s.exec w c).2).about = false := by
  cases op with
  | cancel =>
    have hsame : ∀ (c : JobCall) (r : c.Reply), (notedCancel l c r).about = l.about := by
      intro c r
      unfold notedCancel
      split
      · rfl
      · rfl
    exact (hsame c _).trans habout
  | run =>
    obtain ⟨hraises, hkept⟩ := hunraced hover
    have hreply : (s.exec w c).2 = s.answer w c := by simp [JobTable.exec, hraises]
    rw [hreply]
    cases c with
    | readStatus =>
      have hstatus : s.status.isOver = true := hover
      change (if l.running then ({ l with about := _, sure := _ } : JobNote)
        else { l with about := _ }).about = false
      split_ifs
      · simp [habout, hstatus]
      · have hplanned : s.status ≠ .planned := by
          intro heq
          rw [heq] at hstatus
          cases hstatus
        simpa using hplanned
    | acquire => exact absurd (habout.symm.trans hallowed) (by simp)
    | extend => simp [noted, notedRun, JobTable.answer, hkept rfl]
    | setStatus _ | executeItem _ => rfl
    | listPlanned | finishAssets | refreshMediaServer | refreshCounters | listRunning
    | recoverItems => exact habout
  | recover =>
    cases c with
    | listRunning =>
      have hstatus : s.status ≠ .running := by
        intro heq
        have hstatus : s.status.isOver = true := hover
        rw [heq] at hstatus
        cases hstatus
      by_cases hraises : w.raises
      · simpa [noted, notedRecover, JobTable.exec, JobTable.raised, hraises] using habout
      · simp [noted, notedRecover, JobTable.exec, JobTable.answer, hraises, hstatus]
    | acquire => exact absurd (habout.symm.trans hallowed) (by simp)
    | setStatus _ => rfl
    | recoverItems =>
      by_cases hraises : w.raises
      · simp [noted, notedRecover, JobTable.exec, JobTable.raised, hraises]
      · simpa [noted, notedRecover, JobTable.exec, JobTable.answer, hraises] using habout
    | readStatus | listPlanned | executeItem _ | extend | finishAssets | refreshMediaServer
    | refreshCounters => exact habout

/-- A job is cancelled by `cancel_job`. -/
theorem cancel_of_over (hsure : l.sure → Over s) (hbefore : ¬Over s) (hallowed : Allowed op l c)
    (hover : Over (s.exec w c).1) : op = .cancel ∧ ∃ status, c = .setStatus status := by
  cases c with
  | setStatus status =>
    have hstatus : status.isOver := by
      simp only [JobTable.exec] at hover
      split_ifs at hover
      · exact absurd hover hbefore
      · exact hover
    cases op with
    | run =>
      rcases hallowed with ⟨-, hknown⟩ | ⟨hother, -⟩
      · exact absurd (hsure hknown) hbefore
      · exact absurd (hother.symm.trans hstatus) (by simp)
    | cancel => exact ⟨rfl, status, rfl⟩
    | recover => exact absurd (hallowed.1.symm.trans hstatus) (by simp)
  | executeItem id =>
    simp only [JobTable.exec] at hover
    split_ifs at hover
    · exact absurd hover hbefore
    · exact absurd hover hbefore
  | readStatus | acquire | listPlanned | extend | finishAssets | refreshMediaServer
  | refreshCounters | listRunning | recoverItems =>
    simp only [JobTable.exec, JobTable.noteStarted, JobTable.after, ite_self] at hover
    exact absurd hover hbefore

/-- A call knows that the job is cancelled from the row, or because it has written so. -/
theorem sure_call (hsure : l.sure → Over s) (hbefore : ¬Over s) (hallowed : Allowed op l c)
    (hknown : (noted op l c (s.exec w c).2).sure) : Over (s.exec w c).1 := by
  have hfalse : l.sure = false := by simpa using mt hsure hbefore
  cases op with
  | cancel =>
    cases c with
    | setStatus status =>
      by_cases hraises : w.raises
      · simp [noted, notedCancel, JobTable.exec, JobTable.raised, hraises, hfalse] at hknown
      · have hstatus : status.isOver := hallowed
        simpa [JobTable.exec, hraises, Over, JobTable.after] using hstatus
    | readStatus | acquire | listPlanned | executeItem _ | extend | finishAssets
    | refreshMediaServer | refreshCounters | listRunning | recoverItems =>
      exact absurd (hfalse.symm.trans hknown) (by simp)
  | run =>
    cases c with
    | readStatus =>
      by_cases hraises : w.raises
      · simp [noted, notedRun, caught, JobTable.exec, JobTable.raised, hraises, hfalse] at hknown
      · have hstatus : s.status.isOver = false := by simpa [Over] using hbefore
        simp only [noted, notedRun, JobTable.exec, JobTable.answer, hraises] at hknown
        split_ifs at hknown <;> simp_all
    | acquire | listPlanned | executeItem _ | extend | finishAssets
    | refreshMediaServer | refreshCounters | listRunning | recoverItems | setStatus _ =>
      by_cases hraises : w.raises
      · simp [noted, notedRun, caught, JobTable.exec, JobTable.raised, hraises, hfalse] at hknown
      · simp [noted, notedRun, JobTable.exec, JobTable.answer, hraises, hfalse] at hknown
  | recover =>
    have hsame : ∀ (c : JobCall) (r : c.Reply), (notedRecover l c r).sure = l.sure := by
      intro c r
      unfold notedRecover
      split <;> rfl
    exact absurd ((hsame c _).symm.trans hknown) (by simp [hfalse])

theorem inv_call (h : Inv s ns) (hi : ns[i]? = some (op, l)) (hallowed : Allowed op l c)
    (hunraced : Unraced s ns w i op l c) :
    Inv (s.exec w c).1 (ns.set i (op, noted op l c (s.exec w c).2)) := by
  have hmem : (op, l) ∈ ns := List.mem_of_getElem? hi
  by_cases hover : Over s
  · have habout : l.about = false := h.still hover _ hmem
    have hover' := (over_call (w := w) hover habout hallowed).1
    refine ⟨fun _ n hn => ?_, fun _ _ _ => hover'⟩
    rcases List.mem_or_eq_of_mem_set hn with hn | rfl
    · exact h.still hover n hn
    · exact about_call hover habout hallowed hunraced
  · have hsure : ∀ n ∈ ns, n.2.sure = false := by
      intro n hn
      simpa using mt (h.sure n hn) hover
    refine ⟨fun hover' n hn => ?_, fun n hn hknown => ?_⟩
    · -- the job is cancelled by this step
      obtain ⟨rfl, status, rfl⟩ := cancel_of_over (h.sure _ hmem) hover hallowed hover'
      rcases List.mem_or_eq_of_mem_set hn with hn | rfl
      · exact hunraced n hn
      · have hsame : (noted .cancel l (.setStatus status) (s.exec w (.setStatus status)).2).about =
            l.about := by
          by_cases hraises : w.raises
          · simp [noted, notedCancel, JobTable.exec, JobTable.raised, hraises]
          · simp [noted, notedCancel, JobTable.exec, JobTable.answer, hraises]
        exact hsame.trans (hunraced _ hmem)
    · rcases List.mem_or_eq_of_mem_set hn with hn | rfl
      · exact absurd ((hsure n hn).symm.trans hknown) (by simp)
      · exact sure_call (h.sure _ hmem) hover hallowed hknown

/-! ## Runs -/

/-- The job, and the calls on it. -/
abbrev JobPool := Pool JobTable JobOp JobNote JobCall JobCall.Reply (Option Bool)

/-- `cancel_job` has returned True. -/
def Returned (p : JobPool) : Prop := ∃ x ∈ p.workers, x.op = .cancel ∧ x.rest = .ret (some true)

/-- From one state to a later one, a cancelled job stays so, and starts no item. -/
def Final (p p' : JobPool) : Prop :=
  Returned p → Over p'.store ∧ p'.store.started = p.store.started

/-- What holds of every state of a run of such steps. -/
def Sound (p : JobPool) : Prop :=
  (∀ x ∈ p.workers, Pool.Obeying shop Allowed Ended x) ∧ Inv p.store p.notes

theorem inv_start (h : Inv s ns) (op : JobOp) : Inv s (ns ++ [(op, ({} : JobNote))]) := by
  refine ⟨fun hover n hn => ?_, fun n hn hsure => ?_⟩
  · rcases List.mem_append.mp hn with hn | hn
    · exact h.still hover n hn
    · rw [List.mem_singleton.mp hn]
  · rcases List.mem_append.mp hn with hn | hn
    · exact h.sure n hn hsure
    · rw [List.mem_singleton.mp hn] at hsure
      cases hsure

theorem sound_foldl {p : JobPool} (h : Sound p) {moves : List (PoolMove JobOp JobTurn Empty)}
    (hmeets : Run.Along (Pool.step shop) (Pool.Meets Unraced fun _ _ _ => True) p moves) :
    Sound (moves.foldl (Pool.step shop) p) := by
  refine Pool.invariant obeys_program ?_ ?_ ?_ h.1 h.2 hmeets
  · intro s ns op hinv
    exact inv_start hinv op
  · intro s ns w i op l c s' r hinv hi hallowed hunraced hexec
    obtain ⟨rfl, rfl⟩ := Prod.mk.inj (Option.some.inj hexec)
    exact inv_call hinv hi hallowed hunraced
  · intro s ns e
    exact e.elim

/-- The job is cancelled, and the items that were started are these. -/
def Stopped (started : List ℕ) (s : JobTable) (ns : List (JobOp × JobNote)) : Prop :=
  Inv s ns ∧ Over s ∧ s.started = started

/-- A cancelled job stays so, and starts no item. -/
theorem over_foldl {p : JobPool} (h : Sound p) (hover : Over p.store)
    {moves : List (PoolMove JobOp JobTurn Empty)}
    (hmeets : Run.Along (Pool.step shop) (Pool.Meets Unraced fun _ _ _ => True) p moves) :
    Over (moves.foldl (Pool.step shop) p).store ∧
      (moves.foldl (Pool.step shop) p).store.started = p.store.started := by
  have hstart : Stopped p.store.started p.store p.notes := ⟨h.2, hover, rfl⟩
  have hrun : (∀ x ∈ (moves.foldl (Pool.step shop) p).workers,
      Pool.Obeying shop Allowed Ended x) ∧
      Stopped p.store.started (moves.foldl (Pool.step shop) p).store
        (moves.foldl (Pool.step shop) p).notes := by
    refine Pool.invariant obeys_program ?_ ?_ ?_ h.1 hstart hmeets
    · intro s ns op hinv
      exact ⟨inv_start hinv.1 op, hinv.2⟩
    · intro s ns w i op l c s' r hinv hi hallowed hunraced hexec
      obtain ⟨rfl, rfl⟩ := Prod.mk.inj (Option.some.inj hexec)
      have habout : l.about = false := hinv.1.still hinv.2.1 _ (List.mem_of_getElem? hi)
      obtain ⟨hover', hstarted⟩ := over_call (w := w) hinv.2.1 habout hallowed
      exact ⟨inv_call hinv.1 hi hallowed hunraced, hover', hstarted.trans hinv.2.2⟩
    · intro s ns e
      exact e.elim
  exact hrun.2.2

/-- A cancellation that has returned True has been written. -/
theorem over_of_returned {p : JobPool} (h : Sound p) (hreturned : Returned p) : Over p.store := by
  obtain ⟨x, hx, hop, hrest⟩ := hreturned
  have hended := h.1 x hx
  rw [Pool.Obeying, hrest] at hended
  exact h.2.sure (x.op, x.note) (List.mem_map.mpr ⟨x, hx, rfl⟩) (hended hop rfl)

/-- **Cancellation is final**: in a run all of whose steps meet the condition, once a cancellation
has returned True, the job stays cancelled and no item of it is started any more. -/
theorem cancel_final (s : JobTable) (moves : List (PoolMove JobOp JobTurn Empty))
    (hmeets : Run.Along (Pool.step shop) (Pool.Meets Unraced fun _ _ _ => True) ⟨s, []⟩ moves) :
    ∀ n m, n ≤ m →
      Final (Run.stateAt (Pool.step shop) ⟨s, []⟩ moves n)
        (Run.stateAt (Pool.step shop) ⟨s, []⟩ moves m) := by
  intro n m hnm hreturned
  have hsound : Sound (⟨s, []⟩ : JobPool) := by
    refine ⟨fun x hx => absurd hx List.not_mem_nil, fun _ n hn => ?_, fun n hn => ?_⟩
    · exact absurd hn List.not_mem_nil
    · exact absurd hn List.not_mem_nil
  have hsplit : moves.take m = moves.take n ++ (moves.take m).drop n := by
    conv_lhs => rw [← List.take_append_drop n (moves.take m), List.take_take, min_eq_left hnm]
  have hboth := hmeets.take m
  rw [hsplit, Run.along_append] at hboth
  have hbefore := sound_foldl hsound hboth.1
  have hlater := over_foldl hbefore (over_of_returned hbefore hreturned) hboth.2
  rw [Run.stateAt, Run.stateAt, hsplit, List.foldl_append]
  exact hlater

/-- A job with two items. -/
def twoItems : JobTable := { planned := [1, 2] }

/-- The job is cancelled while its first item is executed. -/
def cancelledInItem : List (PoolMove JobOp JobTurn Empty) :=
  .start .run :: List.replicate 6 (.advance 0 {}) ++
    .start .cancel :: List.replicate 2 (.advance 1 {}) ++ List.replicate 7 (.advance 0 {})

theorem cancel_final_cancelledInItem :
    Final (Run.stateAt (Pool.step shop) ⟨twoItems, []⟩ cancelledInItem 10)
      (Run.stateAt (Pool.step shop) ⟨twoItems, []⟩ cancelledInItem 17) := by
  have hmeets : Run.Along (Pool.step shop) (Pool.Meets Unraced fun _ _ _ => True) ⟨twoItems, []⟩
      cancelledInItem := by decide +kernel
  exact cancel_final twoItems cancelledInItem hmeets 10 17 (by decide)

/-- The job is cancelled after a worker has found it planned. -/
def cancelledBeforeStart : List (PoolMove JobOp JobTurn Empty) :=
  [.start .run, .advance 0 {}, .start .cancel, .advance 1 {}, .advance 1 {}] ++
    List.replicate 5 (.advance 0 {})

/-- The worker writes that it runs, and starts the items. -/
theorem cancelledBeforeStart_runs : ¬∀ (s : JobTable) (moves : List (PoolMove JobOp JobTurn Empty)),
    ∀ n m, n ≤ m → Final (Run.stateAt (Pool.step shop) ⟨s, []⟩ moves n)
      (Run.stateAt (Pool.step shop) ⟨s, []⟩ moves m) := by
  intro h
  have hworker : (Run.stateAt (Pool.step shop) ⟨twoItems, []⟩ cancelledBeforeStart 5).workers[1]? =
      some ⟨.cancel, { sure := true }, .ret (some true)⟩ := by
    with_unfolding_all rfl
  have hreturned : Returned (Run.stateAt (Pool.step shop) ⟨twoItems, []⟩ cancelledBeforeStart 5) :=
    ⟨_, List.mem_of_getElem? hworker, rfl, rfl⟩
  have hrunning : ¬Over (Run.stateAt (Pool.step shop) ⟨twoItems, []⟩ cancelledBeforeStart 10).store := by
    decide +kernel
  exact hrunning (h twoItems cancelledBeforeStart 5 10 (by decide) hreturned).1

end RenameRace

end WolfNas
