import WolfNas.Rename.Sweep

/-!
# A rollback takes a job back

A rollback takes the items back, the last one first, and of each item the last move first.  Each
file is then where its move took it, so it goes back to where it came from, or the rollback says
that it failed.  The rows follow the items.

## Main definitions

* `Unwinds` — taking back some hops brings every file to where it was at the start.
* `Returning` — the invariant of a rollback: of the items that are still to be taken back.

## Main results

* `RenameEnv.says_runJob` — a job that is completed has done all items, or lost one.
* `RenameEnv.says_rollbackJob` — a rollback without a failure has taken everything back.
-/

namespace WolfNas

open Program

variable {S : Type} [DecidableEq S] {env : RenameEnv S} {start trees : S → MovableTree}
  {rows₀ rows : RenameRows} {jobId : ℕ}

/-! ## Jobs -/

/-- The invariant holds before the first item. -/
theorem stage_nil (hplan : Planned env start rows₀ jobId) (hitems : rows.items = rows₀.items)
    (hhistory : rows.history = rows₀.history) (hmetadata : rows.metadata = rows₀.metadata) :
    Stage env start rows₀ (rows₀.planOf jobId) [] start rows := by
  refine ⟨⟨[], ⟨⟨fun s => ?_, hplan.sound⟩, trivial, by simp, hplan.proper⟩, fun t => rfl, by simp,
    by simp, by simp, hplan.found, by simp⟩, ?_, ?_, ?_⟩
  · simp [positions]
  · have hsame : rows₀.items.map (settled ([] : List (Trail S))) = rows₀.items :=
      List.map_id'' (fun _ => rfl) _
    rw [hitems, hsame]
  · rw [HistoryIs, hhistory]
    rfl
  · rw [MetadataIs, hmetadata, List.take_of_length_le (by simp)]
    rfl

namespace RenameEnv

section Steady

variable (henv : env.Steady) {A : Assertion S} {E : Text → RenameWorld S → Prop}

include henv

omit [DecidableEq S] in
/-- What a job writes into its own row. -/
theorem says_updateJobStatus {status : JobStatus}
    (hA : ∀ trees rows jobs, A trees rows → A trees { rows with jobs }) :
    Triple (Says A) (env.updateJobStatus jobId status) (fun _ => Says A) E :=
  says_answer henv fun trees rows h => hA trees rows _ h

omit [DecidableEq S] in
theorem says_refresh : Triple (Says A) (env.refreshJobCounters) (fun _ => Says A) E :=
  says_answer henv fun _ _ h => h

omit [DecidableEq S] in
theorem says_refreshMediaServer :
    Triple (Says A) (env.refreshMediaServer jobId) (fun _ => Says A) E := by
  refine triple_bind (Q := fun _ => Says A) (says_answer henv fun _ _ h => h) fun _ => ?_
  refine triple_bind (Q := fun _ => Says A) (says_answer henv fun _ _ h => h) fun _ => ?_
  exact says_pure fun _ _ h => h

end Steady

/-- What a job leaves that ends well: all items of the plan are done, or one is lost. -/
def Ended (env : RenameEnv S) (start : S → MovableTree) (rows₀ : RenameRows) (jobId : ℕ) :
    Assertion S := fun trees rows =>
  LostBut rows₀ jobId [] trees rows ∨ Reached env start rows₀ jobId [] trees rows

omit [DecidableEq S] in
/-- The items that a job takes up are those of its plan. -/
theorem insertionSort_planOf (hplan : Planned env start rows₀ jobId) :
    (rows₀.planOf jobId).insertionSort (fun x y => x.id ≤ y.id) = rows₀.planOf jobId := by
  have hids := List.pairwise_map.mp hplan.nodup
  exact (hids.imp le_of_lt).insertionSort_eq

theorem Ended.of_jobs {rows : RenameRows} (h : Ended env start rows₀ jobId trees rows)
    (jobs : ℕ → Option JobStatus) : Ended env start rows₀ jobId trees { rows with jobs } := by
  rcases h with h | ⟨done, hdone, hstage⟩
  · exact .inl h
  · exact .inr ⟨done, hdone, hstage.of_jobs jobs⟩

/-- A job that has not begun has lost an item, where there is one. -/
theorem ended_start (hplan : Planned env start rows₀ jobId) :
    Ended env start rows₀ jobId start rows₀ := by
  have hstage := stage_nil hplan rfl rfl rfl
  cases hplanned : rows₀.planOf jobId with
  | nil =>
    rw [hplanned] at hstage
    exact .inr ⟨[], hplanned, hstage⟩
  | cons x rest =>
    rw [hplanned] at hstage
    have hsplit : rows₀.planOf jobId = ([] : List (Trail S)).map Trail.item ++ x :: rest := hplanned
    exact .inl ⟨x, by simp [hplanned], by simp, lost_of_stage hplan hsplit hstage⟩

/-- The directories are handled after the items. -/
theorem says_sweep (henv : env.Steady) (hplan : Planned env start rows₀ jobId) :
    Triple (Says fun trees rows => LostBut rows₀ jobId [] trees rows ∨
        Reached env start rows₀ jobId [] trees rows)
      (Program.attempt (do
        let items ← env.listAllItems jobId
        env.finishDirectoryAssets (directoryGroups items) : Rename S Unit))
      (fun _ => Says (Ended env start rows₀ jobId)) fun _ _ => True := by
  rintro w (⟨x, hx, hno, hlost⟩ | hreached)
  · -- The lost item stays lost.
    have hkeeps : Keeps (Says (Lost x.id)) (do
        let items ← env.listAllItems jobId
        env.finishDirectoryAssets (directoryGroups items) : Rename S Unit) := by
      refine keeps_bind (lost_repo henv fun rows a rows' h => ?_) fun items => lost_finish henv _
      cases h
      rfl
    refine (keeps_attempt hkeeps).weaken (fun _ h => h) (fun r w h => ?_) (fun _ _ _ => trivial)
      w hlost
    exact .inl ⟨x, hx, hno, h⟩
  · have hswept : Triple (Says (Reached env start rows₀ jobId [])) (do
        let items ← env.listAllItems jobId
        env.finishDirectoryAssets (directoryGroups items) : Rename S Unit)
        (fun _ => Says (Reached env start rows₀ jobId [])) fun _ => Says fun _ _ => False := by
      refine triple_bind (Q := fun items => Says (Swept env start rows₀ jobId
        (directoryGroups items))) (says_answer henv fun trees rows h => ?_)
        fun items => says_finish henv hplan _
      refine swept_of_reached hplan h fun y hy => ?_
      simpa using (List.mem_insertionSort _).mp hy
    refine (says_attempt hswept).weaken (fun _ h => h) (fun r w h => ?_) (fun _ _ h => h)
      w hreached
    cases r with
    | ok _ => exact .inr h
    | error _ => exact h.elim

/-- **What is done while the lock is held.** -/
theorem says_runBody (henv : env.Steady) (hplan : Planned env start rows₀ jobId) :
    Triple (Says fun trees rows => trees = start ∧ rows = rows₀) (env.runBody jobId)
      (fun _ => Says (Ended env start rows₀ jobId)) fun _ _ => True := by
  let A : Assertion S := fun trees rows => trees = start ∧ rows.items = rows₀.items ∧
    rows.history = rows₀.history ∧ rows.metadata = rows₀.metadata
  refine triple_bind (Q := fun _ => Says A) ?_ fun _ => ?_
  · refine says_answer henv ?_
    rintro trees rows ⟨rfl, rfl⟩
    exact ⟨rfl, rfl, rfl, rfl⟩
  refine triple_bind (Q := fun planned => Says fun trees rows =>
    planned = rows₀.planOf jobId ∧ A trees rows) ?_ fun planned => ?_
  · refine says_answer henv ?_
    rintro trees rows ⟨rfl, hitems, hrows⟩
    refine ⟨?_, rfl, hitems, hrows⟩
    rw [← insertionSort_planOf hplan, RenameRows.planOf, ← hitems]
  rintro w ⟨rfl, htrees, hitems, hhistory, hmetadata⟩
  have hstart : Says (Reached env start rows₀ jobId (rows₀.planOf jobId)) w := by
    refine ⟨[], rfl, ?_⟩
    rw [htrees]
    exact stage_nil hplan hitems hhistory hmetadata
  refine triple_bind (says_runItems henv hplan _) (fun lockLost => ?_) w hstart
  have hjobs : ∀ trees rows jobs, Ended env start rows₀ jobId trees rows →
      Ended env start rows₀ jobId trees { rows with jobs } := fun _ _ jobs h => h.of_jobs jobs
  have hend : ∀ lockLost : Bool, Triple (Says (Ended env start rows₀ jobId)) (do
      env.refreshMediaServer jobId
      env.maybeCancelled jobId
      let status ← env.getJob jobId
      env.refreshJobCounters
      env.updateJobStatus jobId
        (if lockLost then .interrupted
        else if status = some .cancelling ∨ status = some .cancelled then .cancelled
        else .completed) : Rename S Unit)
      (fun _ => Says (Ended env start rows₀ jobId)) fun _ _ => True := by
    intro lockLost
    refine triple_bind (says_refreshMediaServer henv) fun _ => ?_
    refine triple_bind (says_maybeCancelled hjobs) fun _ => ?_
    refine triple_bind (says_getJob henv).result fun _ => ?_
    refine triple_bind (says_refresh henv) fun _ => ?_
    exact says_updateJobStatus henv hjobs
  cases lockLost with
  | true => exact hend true
  | false => exact triple_bind (says_sweep henv hplan) fun _ => hend false

/-- **A job that is completed** has done all items of its plan, or lost one. -/
theorem says_runJob (henv : env.Steady) (hplan : Planned env start rows₀ jobId) :
    Triple (Says fun trees rows => trees = start ∧ rows = rows₀) (env.runJob jobId)
      (fun _ => Says fun trees rows => rows.jobs jobId = some .completed →
        Ended env start rows₀ jobId trees rows) fun _ _ => True := by
  refine triple_bind (says_getJob henv).result fun status => ?_
  have hidle : Triple (Says fun trees rows => trees = start ∧ rows = rows₀)
      (Pure.pure () : Rename S Unit) (fun _ => Says fun trees rows =>
        rows.jobs jobId = some .completed → Ended env start rows₀ jobId trees rows)
      fun _ _ => True := by
    refine says_pure ?_
    rintro trees rows ⟨rfl, rfl⟩ -
    exact ended_start hplan
  split_ifs
  · exact hidle
  · refine triple_bind (says_ask henv) fun free => ?_
    rintro w ⟨-, hw⟩
    cases free with
    | false => exact hidle w hw
    | true =>
      have hbody : Triple (Says fun trees rows => trees = start ∧ rows = rows₀) (env.runBody jobId)
          (fun _ => Says fun trees rows => rows.jobs jobId = some .completed →
            Ended env start rows₀ jobId trees rows) fun _ _ => True :=
        (says_runBody henv hplan).weaken (fun _ h => h) (fun _ _ h _ => h) fun _ _ h => h
      refine triple_handle hbody (fun e => ?_) w hw
      -- After an exception the job is failed.
      refine triple_bind (Q := fun _ _ => True) (triple_true _) fun _ => ?_
      refine says_answer henv (A := fun _ _ => True) ?_
      rintro trees rows - hcompleted
      dsimp only at hcompleted
      rw [Function.update_self, Option.map_eq_some_iff] at hcompleted
      obtain ⟨_, -, hfailed⟩ := hcompleted
      cases hfailed

end RenameEnv

/-! ## One move is taken back -/

/-- Taking back the hops brings every file to where it was at the start, and each hop is taken
back where its file is. -/
def Unwinds (start : S → MovableTree) (hops : MoveLog S) (trees : S → MovableTree) : Prop :=
  ∃ pos, Placed start trees pos ∧ (∀ h ∈ hops, Real start h.thing) ∧
    Run.Along Hop.back (fun pos h => pos h.thing = h.target) pos hops ∧
      hops.foldl Hop.back pos = Prod.snd

theorem Unwinds.of_files {hops : MoveLog S} {trees' : S → MovableTree}
    (h : Unwinds start hops trees) (hfiles : ∀ s, (trees' s).files = (trees s).files) :
    Unwinds start hops trees' := by
  obtain ⟨pos, ⟨hplaced, hsound⟩, hreal, halong, hend⟩ := h
  refine ⟨pos, ⟨fun s => (hfiles s).trans (hplaced s), fun s => ?_⟩, hreal, halong, hend⟩
  rw [hfiles]
  exact hsound s

/-- The first of the hops is taken back. -/
theorem Unwinds.back {b : StorageHandle S} {old new : Text} {h : Hop (Thing S) (List Text)}
    {hops : MoveLog S} {tree : MovableTree} (hw : Unwinds start (h :: hops) trees)
    (hrec : Records b old new h) (hfree : (trees b.store).isThere (b.place old) = false)
    (hmove : (trees b.store).move (b.place new) (b.place old) = some tree) :
    Unwinds start hops (Function.update trees b.store tree) := by
  obtain ⟨pos, hplaced, hreal, ⟨hat, halong⟩, hend⟩ := hw
  refine ⟨Hop.back pos h, ?_, fun g hg => hreal g (List.mem_cons_of_mem _ hg), halong, hend⟩
  have hthing := hreal h List.mem_cons_self
  rw [← hrec.store, ← hrec.target, ← hat] at hmove
  rw [← hrec.store] at hfree ⊢
  rw [Hop.back, hrec.source]
  exact hplaced.move hthing hmove hfree

/-- The file of the first hop is where its move took it. -/
theorem Unwinds.isThere {b : StorageHandle S} {old new : Text} {h : Hop (Thing S) (List Text)}
    {hops : MoveLog S} (hw : Unwinds start (h :: hops) trees) (hrec : Records b old new h) :
    (trees b.store).isThere (b.place new) = true := by
  obtain ⟨pos, hplaced, hreal, ⟨hat, -⟩, -⟩ := hw
  have hfile := hplaced.isFile (hreal h List.mem_cons_self)
  rw [hat, hrec.target, hrec.store] at hfile
  exact FileTree.isThere_of_isFile hfile

namespace RenameEnv

variable {b : StorageHandle S} {R : RenameRows → Prop} {E : Text → RenameWorld S → Prop}

/-- What becomes of a move: it is taken back, or the rollback fails. -/
def Undone (start : S → MovableTree) (hops : MoveLog S) (R : RenameRows → Prop) (ok : Bool) :
    Assertion S := fun trees rows => ok = true → R rows ∧ Unwinds start hops trees

section Steady

variable (henv : env.Steady)

include henv

/-- A move that is taken back where its target is free. -/
theorem says_moveBack {old new : Text} {h : Hop (Thing S) (List Text)} {hops : MoveLog S}
    (hreg : b.Regular) (hrec : Records b old new h) (ok : Bool) :
    Triple (Says fun trees rows => (R rows ∧ Unwinds start (h :: hops) trees) ∧
        (trees b.store).isThere (b.place old) = false)
      (do
        let back ← env.moveBack b new old
        Pure.pure (ok && back)) (fun ok => Says (Undone start hops R ok)) E := by
  have hplace := hreg.place_eq old hrec.plain hrec.proper
  have hback : Triple (Says fun trees rows => (R rows ∧ Unwinds start (h :: hops) trees) ∧
        (trees b.store).isThere (b.place old) = false) (env.moveBack b new old)
      (fun back => Says (Undone start hops R back)) E := by
    refine triple_bind (says_attempt_move henv (C := fun trees rows =>
      R rows ∧ Unwinds start hops trees) ?_ hplace.symm rfl ?_) fun r => ?_
    · exact fun trees trees' rows hfiles hw => ⟨hw.1, hw.2.of_files hfiles⟩
    · exact fun trees rows t hw hfree hmove => ⟨hw.1, hw.2.back hrec hfree hmove⟩
    · cases r with
      | ok _ => exact says_pure fun _ _ hw _ => hw
      | error _ => exact says_pure fun _ _ _ hfalse => absurd hfalse (by decide)
  refine triple_bind hback fun back => says_pure fun trees rows hw hok => ?_
  exact hw (Bool.and_eq_true_iff.mp hok).2

/-- **A file is taken back**, or the rollback fails. -/
theorem says_undoMove {old new : Text} {h : Hop (Thing S) (List Text)} {hops : MoveLog S}
    (hreg : b.Regular) (hrec : Records b old new h) (ok : Bool) {otherwise : Bool → Bool}
    (hother : ok = false → ∀ oldExists, otherwise oldExists = false) :
    Triple (Says (Undone start (h :: hops) R ok)) (do
      let newExists ← env.pathExists b new
      let oldExists ← env.pathExists b old
      if newExists then
        if oldExists then Pure.pure false
        else do
          let back ← env.moveBack b new old
          Pure.pure (ok && back)
      else Pure.pure (otherwise oldExists)) (fun ok => Says (Undone start hops R ok)) fun _ _ =>
        True := by
  have hfails : ∀ {A : Assertion S}, Triple (Says A) (Pure.pure false : Rename S Bool)
      (fun ok => Says (Undone start hops R ok)) fun _ _ => True :=
    says_pure fun _ _ _ hfalse => absurd hfalse (by decide)
  cases ok with
  | false =>
    -- What has failed stays so.
    refine triple_bind (Q := fun _ => Says fun _ _ => True) (triple_true _) fun newExists => ?_
    refine triple_bind (Q := fun _ => Says fun _ _ => True) (triple_true _) fun oldExists => ?_
    split_ifs
    · exact hfails
    · exact triple_bind (Q := fun _ => Says fun _ _ => True) (triple_true _) fun _ => hfails
    · rw [hother rfl]
      exact hfails
  | true =>
    refine triple_bind (says_pathExists henv) fun newExists => ?_
    refine triple_bind (says_pathExists henv) fun oldExists => ?_
    rintro w ⟨⟨hw, hnew⟩, hold⟩
    obtain ⟨hR, hunwinds⟩ := hw rfl
    rw [hunwinds.isThere hrec] at hnew
    subst hnew
    cases oldExists with
    | true => exact hfails (A := fun _ _ => True) w trivial
    | false => exact says_moveBack henv hreg hrec true w ⟨⟨hR, hunwinds⟩, hold⟩

/-- **The moves of an item are taken back**, or the rollback fails. -/
theorem says_rollbackPaths {e : Trail S} (hgood : e.Good) (hreg : e.handle.Regular)
    (hops : MoveLog S) :
    Triple (Says fun trees rows =>
        R rows ∧ Unwinds start (e.aux.reverse ++ e.main :: hops) trees)
      (env.rollbackPaths e.handle (normPath e.item.oldPath) (normPath e.item.newPath) e.moves)
      (fun ok => Says (Undone start hops R ok)) fun _ _ => True := by
  have hloop : ∀ (ms : List (Text × Text)) (hs : MoveLog S) (ok : Bool),
      List.Forall₂ (fun m h => Records e.handle m.1 m.2 h) ms hs →
        Triple (Says (Undone start (hs ++ e.main :: hops) R ok))
          (ms.foldlM (env.rollbackAux e.handle) ok)
          (fun ok => Says (Undone start (e.main :: hops) R ok)) fun _ _ => True := by
    intro ms hs ok hall
    induction hall generalizing ok with
    | nil => exact says_pure fun _ _ h => h
    | cons hrec _ ih =>
      rw [List.foldlM_cons]
      exact triple_bind (says_undoMove henv hreg hrec ok fun hok _ => hok) ih
  have haux := List.forall₂_reverse_iff.mpr hgood.aux
  refine triple_bind ((hloop _ _ true haux).weaken (fun _ h _ => h) (fun _ _ h => h)
    fun _ _ h => h) fun ok => ?_
  exact says_undoMove henv hreg hgood.main ok fun hok _ => by simp [hok]

end Steady

end RenameEnv

/-! ## A rollback -/

/-- Changing the keys back brings them to where all changes and their undoing bring them. -/
def Comes (moves : List (Trail S) → List ((Text × Text) × Text × Text)) (done left : List (Trail S))
    (f : Text × Text → Text × Text) : Prop :=
  ∀ k, Relocation.undone (moves left) (f k) =
    Relocation.undone (moves done) (Relocation.forth (moves done) k)

/-- The changes of the history, and of the metadata. -/
def historyMoves (done : List (Trail S)) : List ((Text × Text) × Text × Text) :=
  done.map fun e => e.item.historyMove

def metadataMoves (done : List (Trail S)) : List ((Text × Text) × Text × Text) :=
  done.map fun e => e.item.metadataMove

/-- **The invariant of a rollback**: of the items that are still to be taken back. -/
structure Returning (start : S → MovableTree) (rows₀ : RenameRows) (done left : List (Trail S))
    (trees : S → MovableTree) (rows : RenameRows) : Prop where
  unwinds : Unwinds start (undoLog left) trees
  history : ∃ f, HistoryIs f rows₀ rows ∧ Comes historyMoves done left f
  metadata : ∃ f, MetadataIs f rows₀ rows ∧ Comes metadataMoves done left f

variable {done left : List (Trail S)} {e : Trail S}

theorem Returning.of_jobs (h : Returning start rows₀ done left trees rows)
    (jobs : ℕ → Option JobStatus) :
    Returning start rows₀ done left trees { rows with jobs } :=
  ⟨h.unwinds, h.history, h.metadata⟩

/-- A finished job can be taken back. -/
theorem returning_of_stage (h : Stage env start rows₀ [] done trees rows) :
    Returning start rows₀ done done trees rows := by
  obtain ⟨log, htracked⟩ := h.tracked
  have hmoved := htracked.moved
  refine ⟨⟨_, hmoved.placed, fun h hh => ?_, Hop.along_back hmoved.fits htracked.reverses,
    Hop.foldl_back hmoved.fits htracked.reverses⟩, ⟨_, h.history, fun _ => rfl⟩,
    ⟨_, h.metadata, fun _ => rfl⟩⟩
  exact hmoved.real h (htracked.reverses.mem_iff.mp hh)

namespace RenameEnv

/-- **An item is taken back**, or the rollback fails. -/
theorem says_rollbackItem (henv : env.Steady) (hgood : e.Good)
    (hhandle : env.handleOf e.item = some e.handle) :
    Triple (Says (Returning start rows₀ done (left ++ [e]))) (env.rollbackItem e.row)
      (fun ok => Says fun trees rows => ok = true → Returning start rows₀ done left trees rows)
      fun _ _ => True := by
  have hreg := henv.regular _ _ hhandle
  have hnew : normPath e.row.newPath = normPath e.item.newPath := normPath_normPath _
  have hne : normPath e.item.newPath ≠ [] := Path.normpath_ne_nil _
  rw [rollbackItem]
  simp only [hnew, if_neg hne]
  refine triple_bind (says_ask henv) fun backend => ?_
  rintro w ⟨⟨n, hn⟩, hw⟩
  obtain rfl : backend = some e.handle := by
    rw [hn, henv.same]
    exact hhandle
  let A (f g : Text × Text → Text × Text) : Assertion S := fun trees rows =>
    Unwinds start (undoLog left) trees ∧ HistoryIs f rows₀ rows ∧ MetadataIs g rows₀ rows
  obtain ⟨hunwinds, ⟨f, hf, hcomesf⟩, g, hg, hcomesg⟩ := hw
  have hpaths := @says_rollbackPaths S _ env start
    (fun rows => HistoryIs f rows₀ rows ∧ MetadataIs g rows₀ rows) henv e hgood hreg (undoLog left)
  have hundo : undoLog (left ++ [e]) = e.aux.reverse ++ e.main :: undoLog left := by
    simp [undoLog]
  rw [hundo] at hunwinds
  refine triple_bind hpaths (fun ok => ?_) w ⟨⟨hf, hg⟩, hunwinds⟩
  cases ok with
  | false =>
    refine triple_bind (Q := fun _ => Says fun _ _ => True) (triple_true _) fun _ => ?_
    exact says_pure fun _ _ _ hfalse => absurd hfalse (by decide)
  | true =>
    -- The rows are changed back.
    let f' : Text × Text → Text × Text := fun k => Relocation.back (f k) e.item.historyMove
    let g' : Text × Text → Text × Text := fun k => Relocation.back (g k) e.item.metadataMove
    refine triple_bind (Q := fun _ => Says (A f' g)) ?_ fun _ => ?_
    · refine says_answer henv ?_
      intro trees rows h
      obtain ⟨⟨hf, hg⟩, hunwinds⟩ := h rfl
      refine ⟨hunwinds, ?_, hg⟩
      simp only [dirnameOf_normPath, basenameOf_normPath]
      exact hf.move (e.item.historyMove.2, e.item.historyMove.1) _
    refine triple_bind (Q := fun _ => Says (A f' g')) ?_ fun _ => ?_
    · refine (says_repo henv (A := A f' g) (B := fun _ => A f' g') ?_).result
      rintro trees rows a rows' ⟨hunwinds, hf, hg⟩ h
      dsimp only at h
      split_ifs at h
      cases h
      exact ⟨hunwinds, hf, hg.move _ _ _ _ _⟩
    refine triple_bind (Q := fun _ => Says (A f' g')) ?_ fun _ => ?_
    · exact says_answer henv fun trees rows h => h
    refine says_pure fun trees rows h _ => ⟨h.1, ⟨f', h.2.1, fun k => ?_⟩, g', h.2.2, fun k => ?_⟩
    · rw [← hcomesf k, historyMoves, historyMoves, List.map_append]
      exact Relocation.undone_concat.symm
    · rw [← hcomesg k, metadataMoves, metadataMoves, List.map_append]
      exact Relocation.undone_concat.symm

end RenameEnv

/-! ## All items -/

section DoneItems

variable (hplan : Planned env start rows₀ jobId)
  (hdone : rows₀.planOf jobId = done.map Trail.item)

include hplan hdone

omit [DecidableEq S] in
/-- A finished job has failed nowhere: what is done or failed are the items of its plan. -/
theorem finished_iff {x : RenameItem} (hx : x ∈ rows₀.items) :
    (settled done x).jobId = jobId ∧
        ((settled done x).status = .done ∨ (settled done x).status = .failed) ↔
      x.jobId = jobId ∧ x.status = .planned ∧ x.action = .rename := by
  have hmem : x ∈ rows₀.planOf jobId ↔ ∃ e ∈ done, e.item = x := by
    rw [hdone, List.mem_map]
  rcases settled_cases hplan hdone hx with hsame | ⟨e, he, rfl, hrow⟩
  · rw [hsame]
    constructor
    · rintro ⟨hjob, hstatus⟩
      have hplanned := hplan.fresh x hx hjob
      simp [hplanned] at hstatus
    · intro hitem
      obtain ⟨e, he, rfl⟩ := hmem.mp (mem_planOf.mpr ⟨hx, hitem⟩)
      rw [settled_of_mem hplan hdone he] at hsame
      have hstatus := (congrArg RenameItem.status hsame).trans hitem.2.1
      cases hstatus
  · have hitem := (mem_planOf.mp (hmem.mpr ⟨e, he, rfl⟩)).2
    rw [hrow]
    exact iff_of_true ⟨hitem.1, .inl rfl⟩ hitem

omit [DecidableEq S] in
/-- **What a rollback takes up**: the items that the job has done, the last one first. -/
theorem insertionSort_done (hitems : rows.items = rows₀.items.map (settled done)) :
    (rows.items.filter fun x => x.jobId = jobId ∧ (x.status = .done ∨
      x.status = .failed)).insertionSort (fun x y => y.id ≤ x.id) =
        (done.map Trail.row).reverse := by
  have hrows : (rows.items.filter fun x => x.jobId = jobId ∧ (x.status = .done ∨
      x.status = .failed)) = done.map Trail.row := by
    have hfilter : rows₀.items.filter (fun x => (settled done x).jobId = jobId ∧
        ((settled done x).status = .done ∨ (settled done x).status = .failed)) =
          done.map Trail.item := by
      rw [← hdone, RenameRows.planOf]
      exact List.filter_congr fun x hx => decide_eq_decide.mpr (finished_iff hplan hdone hx)
    rw [hitems, List.filter_map]
    refine (congrArg (List.map (settled done)) hfilter).trans ?_
    rw [List.map_map]
    exact List.map_congr_left fun e he => settled_of_mem hplan hdone he
  have hids : ((done.map Trail.row).map RenameItem.id).Pairwise (· < ·) := by
    have hids := hplan.nodup
    rw [hdone, List.map_map] at hids
    rwa [List.map_map]
  have hperm := (List.perm_insertionSort (fun x y : RenameItem => y.id ≤ x.id)
    (done.map Trail.row)).trans (List.reverse_perm _).symm
  rw [hrows]
  refine hperm.eq_of_pairwise ?_ (List.pairwise_insertionSort _ _) ?_
  · intro x y hx hy hyx hxy
    have hinj := List.inj_on_of_nodup_map (hids.imp ne_of_lt)
    exact hinj ((List.mem_insertionSort _).mp hx) (List.mem_reverse.mp hy) (le_antisymm hxy hyx)
  · exact List.pairwise_reverse.mpr ((List.pairwise_map.mp hids).imp le_of_lt)

end DoneItems

/-- Before some items are taken back: they are all that is left, or the rollback has failed. -/
def TakingBack (start : S → MovableTree) (rows₀ : RenameRows) (done : List (Trail S))
    (items : List RenameItem) (counts : ℕ × ℕ) (w : RenameWorld S) : Prop :=
  counts.2 = 0 → ∃ left : List (Trail S), items = (left.map Trail.row).reverse ∧
    (∀ e ∈ left, e ∈ done) ∧ Says (Returning start rows₀ done left) w

namespace RenameEnv

/-- One item, with the counts. -/
theorem says_rollbackEntry (henv : env.Steady)
    (hgood : ∀ e ∈ done, e.Good ∧ env.handleOf e.item = some e.handle) (x : RenameItem)
    (items : List RenameItem) (counts : ℕ × ℕ) :
    Triple (TakingBack start rows₀ done (x :: items) counts) (env.rollbackEntry counts x)
      (fun counts => TakingBack start rows₀ done items counts) fun _ _ => True := by
  intro w hw
  by_cases hcounts : counts.2 = 0
  · obtain ⟨left, hitems, hsub, hreturning⟩ := hw hcounts
    obtain ⟨left, e, rfl⟩ : ∃ l e, left = l ++ [e] := by
      rcases List.eq_nil_or_concat left with rfl | ⟨l, e, rfl⟩
      · cases hitems
      · exact ⟨l, e, by simp⟩
    simp only [List.map_append, List.map_cons, List.map_nil, List.reverse_append,
      List.reverse_singleton, List.singleton_append, List.cons.injEq] at hitems
    obtain ⟨rfl, rfl⟩ := hitems
    have he := hgood e (hsub e (by simp))
    have hdone : ¬e.row.status ≠ .done := by simp [Trail.row]
    rw [rollbackEntry, if_neg hdone]
    refine triple_bind (says_rollbackItem henv he.1 he.2) (fun ok => ?_) w hreturning
    cases ok with
    | true =>
      refine triple_pure _ fun w hw _ => ⟨left, rfl, fun c hc => hsub c (by simp [hc]), hw rfl⟩
    | false => exact triple_pure _ fun w _ hzero => absurd hzero (Nat.succ_ne_zero _)
  · -- What has failed stays so.
    have hfailed : Triple (fun _ : RenameWorld S => True) (env.rollbackEntry counts x)
        (fun counts _ => counts.2 ≠ 0) fun _ _ => True := by
      rw [rollbackEntry]
      split_ifs
      · exact triple_pure counts fun _ _ => hcounts
      · refine triple_bind (triple_true _) fun ok => ?_
        cases ok with
        | true => exact triple_pure _ fun _ _ => hcounts
        | false => exact triple_pure _ fun _ _ => Nat.succ_ne_zero _
    exact hfailed.weaken (fun _ h => h) (fun _ _ h hzero => absurd hzero h)
      (fun _ _ h => h) w trivial

/-- **A rollback without a failure** has taken everything back. -/
theorem says_rollbackJob (henv : env.Steady) (hplan : Planned env start rows₀ jobId)
    (hdone : rows₀.planOf jobId = done.map Trail.item) :
    Triple (Says (Stage env start rows₀ [] done)) (env.rollbackJob jobId)
      (fun r => Says fun trees rows => ∀ n, r = .done n 0 →
        Returning start rows₀ done [] trees rows)
      fun _ _ => True := by
  have hrefused : ∀ {A : Assertion S} (reason : Text), Triple (Says A)
      (Pure.pure (.refused reason) : Rename S RollbackResult) (fun r => Says fun trees rows =>
        ∀ n, r = .done n 0 → Returning start rows₀ done [] trees rows) fun _ _ => True :=
    fun _ => says_pure fun _ _ _ _ hr => by cases hr
  refine triple_bind (says_getJob henv).result fun status => ?_
  cases status with
  | none => exact hrefused _
  | some status =>
    dsimp only
    split_ifs
    · exact hrefused _
    refine triple_bind ((says_ask henv).weaken (fun _ h => h) (fun _ _ h => h.2) fun _ _ h => h)
      fun free => ?_
    cases free with
    | false => exact hrefused _
    | true =>
      refine triple_bind (Q := fun items => Says fun trees rows =>
        items = (done.map Trail.row).reverse ∧ Stage env start rows₀ [] done trees rows) ?_
        fun items => ?_
      · exact says_answer henv fun trees rows h => ⟨insertionSort_done hplan hdone h.items, h⟩
      rintro w ⟨rfl, hstage⟩
      have hgood : ∀ e ∈ done, e.Good ∧ env.handleOf e.item = some e.handle := by
        obtain ⟨log, htracked⟩ := hstage.tracked
        exact fun e he => ⟨htracked.good e he, htracked.handles e he⟩
      have hloop := triple_foldlM (TakingBack start rows₀ done)
        (fun x items counts => says_rollbackEntry henv hgood x items counts)
        (done.map Trail.row).reverse (0, 0)
      refine triple_bind (Q := fun counts => Says fun trees rows => counts.2 = 0 →
        Returning start rows₀ done [] trees rows) (hloop.weaken (fun _ h => h) ?_ fun _ _ h => h)
        (fun counts => ?_) w fun _ => ⟨done, rfl, fun _ he => he, returning_of_stage hstage⟩
      · intro counts w h hzero
        obtain ⟨left, hleft, -, hreturning⟩ := h hzero
        obtain rfl : left = [] := by simpa using hleft
        exact hreturning
      refine triple_bind (says_updateJobStatus henv fun _ _ jobs h hzero =>
        (h hzero).of_jobs jobs) fun _ => ?_
      refine triple_bind (says_refresh henv) fun _ => ?_
      refine triple_bind (says_refreshMediaServer henv) fun _ => ?_
      refine says_pure fun trees rows h n hr => h ?_
      injection hr

end RenameEnv

end WolfNas
