import WolfNas.Lib.Run
import WolfNas.Rename.Executor

/-!
# No file is lost

A file is moved only to where no file is, and a directory is removed only when nothing is in
it.  So whatever fails on the way, the contents in a storage are the same in every state that
a job and its rollback go through.

## Main definitions

* `Intact` — every storage has the contents it started with, and had them all along.
* `RenameCall` — a call on a job.

## Main results

* `RenameEnv.triple_storage` — a call of a backend that keeps the contents.
* `RenameEnv.keeps_runJob`, `RenameEnv.keeps_rollbackJob` — the invariant of both.
* `RenameCall.contents_kept` — no sequence of calls loses or overwrites a content.
-/

namespace WolfNas

open Program

variable {S : Type} [DecidableEq S] {α : Type}

/-- Every storage has the contents it started with, in every state so far. -/
structure Intact (start : S → MovableTree) (w : RenameWorld S) : Prop where
  trees : ∀ s, (w.trees s).contents = (start s).contents
  passed : ∀ t ∈ w.passed, ∀ s, (t s).contents = (start s).contents

namespace RenameEnv

variable {env : RenameEnv S} {start : S → MovableTree} {b : StorageHandle S}

/-! ## Calls -/

omit [DecidableEq S] in
theorem triple_call {P E : RenameWorld S → Prop} {Q : α → RenameWorld S → Prop}
    {f : ℕ → RenameWorld S → Option (α × RenameWorld S)}
    (hclock : ∀ w n, P w → P { w with clock := n })
    (hf : ∀ n w a w', P w → f n w = some (a, w') → Q a w')
    (hraised : ∀ w, P w → E w) (hdone : ∀ a w, Q a w → E w) :
    Triple P (env.call f) Q fun _ => E := by
  intro w hw
  have hw' := hclock w (w.clock + 1) hw
  simp only [call]
  split
  · exact hraised _ hw'
  · exact hraised _ hw'
  · rename_i h
    exact hf _ _ _ _ hw' h
  · rename_i h
    exact hdone _ _ (hf _ _ _ _ hw' h)

omit [DecidableEq S] in
/-- A call of the repository keeps what is said of the storages. -/
theorem triple_repo {R : (S → MovableTree) → List (S → MovableTree) → Prop}
    {f : RenameRows → Option (α × RenameRows)} :
    Keeps (fun w => R w.trees w.passed) (env.repo f) := by
  refine triple_call (fun _ _ h => h) ?_ (fun _ h => h) fun _ _ h => h
  intro n w a w' hw h
  rw [Option.map_eq_some_iff] at h
  obtain ⟨⟨a', rows⟩, -, heq⟩ := h
  cases heq
  exact hw

omit [DecidableEq S] in
theorem keeps_repo {f : RenameRows → Option (α × RenameRows)} :
    Keeps (Intact start) (env.repo f) := by
  have h := @triple_repo S α env
    (fun trees passed => (∀ s, (trees s).contents = (start s).contents) ∧
      ∀ t ∈ passed, ∀ s, (t s).contents = (start s).contents) f
  exact h.weaken (fun _ hw => ⟨hw.trees, hw.passed⟩) (fun _ _ hw => ⟨hw.1, hw.2⟩)
    fun _ _ hw => ⟨hw.1, hw.2⟩

omit [DecidableEq S] in
theorem keeps_ask {f : ℕ → α} : Keeps (Intact start) (env.ask f) := by
  refine triple_call (fun _ _ h => ⟨h.trees, h.passed⟩) ?_ (fun _ h => h) fun _ _ h => h
  intro n w a w' hw h
  cases h
  exact hw

/-- **A call of a backend** that keeps the contents of the storage keeps the invariant. -/
theorem triple_storage {f : ℕ → MovableTree → Option (α × MovableTree)} (P : MovableTree → Prop)
    (Q : α → MovableTree → Prop) (h : ∀ n t a t', P t → f n t = some (a, t') →
      t'.contents = t.contents ∧ Q a t') :
    Triple (fun w => Intact start w ∧ P (w.trees b.store)) (env.storage b f)
      (fun a w => Intact start w ∧ Q a (w.trees b.store)) fun _ => Intact start := by
  refine triple_call (fun _ _ hw => ⟨⟨hw.1.trees, hw.1.passed⟩, hw.2⟩) ?_ (fun _ hw => hw.1)
    fun _ _ hw => hw.1
  intro n w a w' hw hf
  rw [Option.map_eq_some_iff] at hf
  obtain ⟨⟨a', t⟩, ht, heq⟩ := hf
  cases heq
  obtain ⟨hcontents, hQ⟩ := h n _ _ _ hw.2 ht
  have htrees : ∀ s, (Function.update w.trees b.store t s).contents = (start s).contents := by
    intro s
    by_cases hs : s = b.store
    · subst hs
      rw [Function.update_self, hcontents]
      exact hw.1.trees b.store
    · rw [Function.update_of_ne hs]
      exact hw.1.trees s
  refine ⟨⟨htrees, ?_⟩, ?_⟩
  · intro t' ht'
    rcases List.mem_append.mp ht' with ht' | ht'
    · exact hw.1.passed t' ht'
    · obtain rfl := List.mem_singleton.mp ht'
      exact htrees
  · simpa using hQ

/-! ## The storage backend -/

/-- Where a path does not exist, no file is at it. -/
theorem triple_pathExists (path : Text) :
    Triple (Intact start) (env.pathExists b path)
      (fun taken w => Intact start w ∧
        (taken = false → (w.trees b.store).isFile (b.place path) = false))
      fun _ => Intact start := by
  refine (triple_storage (fun _ => True) (fun taken t => taken = false →
    t.isFile (b.place path) = false) ?_).weaken (fun _ hw => ⟨hw, trivial⟩) (fun _ _ hw => hw)
    fun _ _ hw => hw
  intro n t a t' _ h
  cases h
  exact ⟨rfl, fun hthere => FileTree.isFile_of_not_there hthere⟩

theorem keeps_pathExists (path : Text) : Keeps (Intact start) (env.pathExists b path) :=
  (triple_pathExists path).weaken (fun _ hw => hw) (fun _ _ hw => hw.1) fun _ _ hw => hw

theorem keeps_stat (path : Text) : Keeps (Intact start) (env.stat b path) := by
  refine (triple_storage (fun _ => True) (fun _ _ => True) ?_).weaken
    (fun _ hw => ⟨hw, trivial⟩) (fun _ _ hw => hw.1) fun _ _ hw => hw
  intro n t a t' _ h
  cases h
  exact ⟨rfl, trivial⟩

theorem triple_listDir (path : Text) :
    Triple (Intact start) (env.listDir b path)
      (fun _ w => Intact start w ∧ (w.trees b.store).isFile (b.place path) = false)
      fun _ => Intact start := by
  refine (triple_storage (fun _ => True) (fun _ t => t.isFile (b.place path) = false)
    ?_).weaken (fun _ hw => ⟨hw, trivial⟩) (fun _ _ hw => hw) fun _ _ hw => hw
  intro n t a t' _ h
  rw [Option.map_eq_some_iff] at h
  obtain ⟨l, hl, heq⟩ := h
  cases heq
  exact ⟨rfl, FileTree.isFile_of_list hl⟩

theorem keeps_listDir (path : Text) : Keeps (Intact start) (env.listDir b path) :=
  (triple_listDir path).weaken (fun _ hw => hw) (fun _ _ hw => hw.1) fun _ _ hw => hw

/-- Making a directory puts no file anywhere. -/
theorem triple_mkdir (path dst : Text) :
    Triple (fun w => Intact start w ∧ (w.trees b.store).isFile (b.place dst) = false)
      (env.mkdir b path)
      (fun _ w => Intact start w ∧ (w.trees b.store).isFile (b.place dst) = false)
      fun _ => Intact start := by
  refine triple_storage (fun t => t.isFile (b.place dst) = false)
    (fun _ t => t.isFile (b.place dst) = false) ?_
  intro n t a t' hfree h
  rw [Option.map_eq_some_iff] at h
  obtain ⟨t'', ht, heq⟩ := h
  cases heq
  exact ⟨FileTree.contents_mkdir ht, (FileTree.isFile_mkdir ht _).trans hfree⟩

theorem triple_move (src dst : Text) :
    Triple (fun w => Intact start w ∧ (w.trees b.store).isFile (b.place dst) = false)
      (env.move b src dst) (fun _ => Intact start) fun _ => Intact start := by
  refine (triple_storage (fun t => t.isFile (b.place dst) = false) (fun _ _ => True) ?_).weaken
    (fun _ hw => hw) (fun _ _ hw => hw.1) fun _ _ hw => hw
  intro n t a t' hfree h
  rw [Option.map_eq_some_iff] at h
  obtain ⟨t'', ht, heq⟩ := h
  cases heq
  exact ⟨FileTree.contents_move ht hfree, trivial⟩

/-- What does not exist may be moved to, after its directory is made. -/
theorem triple_mkdir_move (dir src dst : Text) :
    Triple (fun w => Intact start w ∧ (w.trees b.store).isFile (b.place dst) = false)
      (do env.mkdir b dir; env.move b src dst) (fun _ => Intact start) fun _ => Intact start :=
  triple_bind (triple_mkdir dir dst) fun _ => triple_move src dst

/-- The same, caught. -/
theorem triple_attempt_move (dir src dst : Text) :
    Triple (fun w => Intact start w ∧ (w.trees b.store).isFile (b.place dst) = false)
      (do env.mkdir b dir; env.move b src dst).attempt (fun _ => Intact start)
      fun _ => Intact start := by
  refine (triple_attempt (triple_mkdir_move dir src dst)).weaken (fun _ hw => hw) ?_
    fun _ _ hw => hw
  intro r w hw
  cases r with
  | ok _ => exact hw
  | error _ => exact hw

theorem triple_remove (path : Text) :
    Triple (fun w => Intact start w ∧ (w.trees b.store).isFile (b.place path) = false)
      (env.remove b path) (fun _ => Intact start) fun _ => Intact start := by
  refine (triple_storage (fun t => t.isFile (b.place path) = false) (fun _ _ => True) ?_).weaken
    (fun _ hw => hw) (fun _ _ hw => hw.1) fun _ _ hw => hw
  intro n t a t' hfile h
  rw [Option.map_eq_some_iff] at h
  obtain ⟨t'', ht, heq⟩ := h
  cases heq
  exact ⟨FileTree.contents_remove ht hfile, trivial⟩

/-! ## One item -/

variable (env b) (item : RenameItem) (oldPath newPath : Text)

/-- A program that asks first whether its target exists, and moves only where it does not. -/
theorem keeps_unless_taken {path : Text} {x : Bool → Rename S α}
    (htaken : Keeps (Intact start) (x true))
    (hfree : Triple (fun w => Intact start w ∧ (w.trees b.store).isFile (b.place path) = false)
      (x false) (fun _ => Intact start) fun _ => Intact start) :
    Keeps (Intact start) (env.pathExists b path >>= x) := by
  refine triple_bind (triple_pathExists path) ?_
  intro taken
  cases taken with
  | true => exact htaken.weaken (fun _ hw => hw.1) (fun _ _ hw => hw) fun _ _ hw => hw
  | false => exact hfree.weaken (fun _ hw => ⟨hw.1, hw.2 rfl⟩) (fun _ _ hw => hw) fun _ _ hw => hw

omit [DecidableEq S] in
theorem keeps_fail (id : ℕ) (reason : Text) : Keeps (Intact start) (env.fail id reason) := by
  rw [fail, updateItem]
  exact keeps_repo

theorem keeps_moveAuxEntry (moved : List (Text × Text)) (entry : Text × Bool) :
    Keeps (Intact start) (env.moveAuxEntry b oldPath newPath moved entry) := by
  rw [moveAuxEntry]
  split
  · exact keeps_pure moved
  · refine keeps_unless_taken env b (keeps_pure moved) ?_
    refine triple_bind (triple_attempt_move _ _ _) ?_
    intro r
    cases r with
    | ok _ => exact keeps_pure _
    | error _ => exact keeps_pure _

theorem keeps_moveAux : Keeps (Intact start) (env.moveAux b oldPath newPath) := by
  refine keeps_bind (keeps_attempt (keeps_listDir _)) ?_
  intro entries
  cases entries with
  | error _ => exact keeps_pure _
  | ok entries => exact keeps_foldlM (keeps_moveAuxEntry env b oldPath newPath) [] entries

theorem triple_moveBack (new old : Text) :
    Triple (fun w => Intact start w ∧ (w.trees b.store).isFile (b.place old) = false)
      (env.moveBack b new old) (fun _ => Intact start) fun _ => Intact start := by
  refine triple_bind (triple_attempt_move _ _ _) ?_
  intro r
  cases r with
  | ok _ => exact keeps_pure _
  | error _ => exact keeps_pure _

theorem keeps_rollbackAux (ok : Bool) (aux : Text × Text) :
    Keeps (Intact start) (env.rollbackAux b ok aux) := by
  refine keeps_bind (keeps_pathExists _) ?_
  intro newExists
  cases newExists with
  | false => exact keeps_bind (keeps_pathExists _) fun _ => keeps_pure _
  | true =>
    refine keeps_unless_taken env b (keeps_pure _) ?_
    exact triple_bind (triple_moveBack env b _ _) fun _ => keeps_pure _

theorem keeps_rollbackMain (ok : Bool) :
    Keeps (Intact start) (env.rollbackMain b oldPath newPath ok) := by
  refine keeps_bind (keeps_pathExists _) ?_
  intro newExists
  cases newExists with
  | false => exact keeps_bind (keeps_pathExists _) fun _ => keeps_pure _
  | true =>
    refine keeps_unless_taken env b (keeps_pure _) ?_
    exact triple_bind (triple_moveBack env b _ _) fun _ => keeps_pure _

theorem keeps_rollbackPaths (aux : List (Text × Text)) :
    Keeps (Intact start) (env.rollbackPaths b oldPath newPath aux) :=
  keeps_bind (keeps_foldlM (keeps_rollbackAux env b) true aux.reverse)
    (keeps_rollbackMain env b oldPath newPath)

omit [DecidableEq S] in
theorem triple_updateItem (id : ℕ) (f : RenameItem → RenameItem) (path : Text) :
    Keeps (fun w => Intact start w ∧ (w.trees b.store).isFile (b.place path) = false)
      (env.updateItem id f) := by
  have h := @triple_repo S Unit env
    (fun trees passed => ((∀ s, (trees s).contents = (start s).contents) ∧
      ∀ t ∈ passed, ∀ s, (t s).contents = (start s).contents) ∧
      (trees b.store).isFile (b.place path) = false)
    fun r => some ((), { r with items := r.items.map fun x => if x.id = id then f x else x })
  exact h.weaken (fun _ hw => ⟨⟨hw.1.trees, hw.1.passed⟩, hw.2⟩)
    (fun _ _ hw => ⟨⟨hw.1.1, hw.1.2⟩, hw.2⟩) fun _ _ hw => ⟨⟨hw.1.1, hw.1.2⟩, hw.2⟩

theorem keeps_placeItem : Keeps (Intact start) (env.placeItem b item oldPath newPath) := by
  refine keeps_unless_taken env b (keeps_bind (keeps_fail env item.id _) fun _ => keeps_pure none) ?_
  refine triple_bind ((triple_updateItem env b item.id _ newPath).weaken (fun _ hw => hw)
    (fun _ _ hw => hw) fun _ _ hw => hw.1) ?_
  intro _
  refine triple_bind (triple_mkdir _ _) ?_
  intro _
  refine triple_bind (triple_move _ _) ?_
  intro _
  exact keeps_bind (keeps_moveAux env b oldPath newPath) fun aux => keeps_pure (some aux)

theorem keeps_recordItem (aux : List (Text × Text)) :
    Keeps (Intact start) (env.recordItem b item oldPath newPath aux) := by
  refine keeps_bind keeps_repo fun _ => keeps_bind (keeps_stat _) fun _ => ?_
  refine keeps_bind keeps_repo fun _ => keeps_bind ?_ fun _ => keeps_repo
  exact keeps_bind (keeps_stat _) fun _ => keeps_repo

theorem keeps_recoverItem (aux : List (Text × Text)) (e : Text) :
    Keeps (Intact start) (env.recoverItem b item oldPath newPath aux e) := by
  refine keeps_bind (keeps_attempt keeps_repo) fun _ => ?_
  refine keeps_bind (keeps_attempt keeps_repo) fun _ => ?_
  exact keeps_bind (keeps_rollbackPaths env b oldPath newPath aux) fun _ => keeps_repo

theorem keeps_renameItem : Keeps (Intact start) (env.renameItem b item oldPath newPath) := by
  refine keeps_bind (keeps_attempt (keeps_placeItem env b item oldPath newPath)) ?_
  intro r
  cases r with
  | error e => exact keeps_recoverItem env b item oldPath newPath [] e
  | ok placed =>
    cases placed with
    | none => exact keeps_pure ()
    | some aux =>
      exact keeps_handle (keeps_recordItem env b item oldPath newPath aux)
        (keeps_recoverItem env b item oldPath newPath aux)

omit [DecidableEq S] in
theorem keeps_acquireAll (keys : List Text) : Keeps (Intact start) (env.acquireAll keys) := by
  induction keys with
  | nil => exact keeps_pure true
  | cons key keys ih =>
    refine keeps_bind keeps_ask ?_
    intro free
    cases free with
    | true => exact ih
    | false => exact keeps_pure false

theorem keeps_checkItem : Keeps (Intact start) (env.checkItem b item oldPath newPath) := by
  refine keeps_bind (keeps_stat _) ?_
  intro stat
  cases stat with
  | none => exact keeps_fail env item.id _
  | some st =>
    by_cases hchanged : FileChanged item st.1 st.2
    · simp only [if_pos hchanged]
      exact keeps_fail env item.id _
    · simp only [if_neg hchanged]
      refine keeps_bind (keeps_pathExists _) fun taken => ?_
      split_ifs
      · exact keeps_fail env item.id _
      · refine keeps_bind (keeps_acquireAll env _) fun free => ?_
        split_ifs
        · exact keeps_renameItem env b item oldPath newPath
        · exact keeps_fail env item.id _

omit b in
theorem keeps_executeItem : Keeps (Intact start) (env.executeItem item) := by
  refine keeps_bind keeps_ask ?_
  intro backend
  cases backend with
  | none => exact keeps_fail env item.id _
  | some b =>
    dsimp only
    split_ifs
    · exact keeps_fail env item.id _
    · exact keeps_fail env item.id _
    · exact keeps_checkItem env b item _ _

/-! ## Directories -/

theorem keeps_moveAsset (newDir : Text) (moved : List (Text × Text)) (entry : Text × Bool) :
    Keeps (Intact start) (env.moveAsset b newDir moved entry) := by
  rw [moveAsset]
  split_ifs
  · exact keeps_pure moved
  · refine keeps_unless_taken env b (keeps_pure moved) ?_
    refine triple_bind (triple_attempt_move _ _ _) ?_
    intro r
    cases r with
    | ok _ => exact keeps_pure _
    | error _ => exact keeps_pure _

/-- What can be listed is a directory, so its removal removes no file. -/
theorem keeps_removeEmpty (dir : Text) : Keeps (Intact start) (env.removeEmpty b dir) := by
  refine triple_bind (triple_listDir dir) ?_
  intro entries
  by_cases hempty : entries = []
  · rw [if_pos hempty]
    exact triple_remove dir
  · rw [if_neg hempty]
    exact triple_pure () fun _ hw => hw.1

theorem keeps_moveAssets (first : RenameItem) (oldDir newDir : Text)
    (entries : List (Text × Bool)) :
    Keeps (Intact start) (env.moveAssets b first oldDir newDir entries) := by
  refine keeps_bind (keeps_foldlM (keeps_moveAsset env b newDir) [] entries) ?_
  intro moved
  have hend : Keeps (Intact start) (do
      let _ ← (env.removeEmpty b oldDir).attempt
      Pure.pure () : Rename S Unit) :=
    keeps_bind (keeps_attempt (keeps_removeEmpty env b oldDir)) fun _ => keeps_pure ()
  by_cases hmoved : moved = []
  · simp only [if_pos hmoved]
    exact hend
  · simp only [if_neg hmoved]
    exact keeps_bind keeps_repo fun _ => hend

omit b in
theorem keeps_finishDirectory (oldDir : Text) (items : List RenameItem) :
    Keeps (Intact start) (env.finishDirectory oldDir items) := by
  unfold finishDirectory
  split
  · split_ifs
    · exact keeps_pure ()
    · refine keeps_bind keeps_ask ?_
      intro backend
      cases backend with
      | none => exact keeps_pure ()
      | some b =>
        refine keeps_bind (keeps_attempt (keeps_listDir _)) ?_
        intro entries
        cases entries with
        | error _ => exact keeps_pure ()
        | ok entries =>
          dsimp only
          split_ifs
          · exact keeps_pure ()
          · exact keeps_moveAssets env b _ _ _ _
  · exact keeps_pure ()

/-! ## Jobs -/

omit b

omit [DecidableEq S] in
theorem keeps_maybeCancelled (jobId : ℕ) : Keeps (Intact start) (env.maybeCancelled jobId) :=
  fun _ hw => ⟨hw.trees, hw.passed⟩

theorem keeps_runItems (jobId : ℕ) (items : List RenameItem) :
    Keeps (Intact start) (env.runItems jobId items) := by
  induction items with
  | nil => exact keeps_pure false
  | cons item items ih =>
    refine keeps_bind (keeps_maybeCancelled env jobId) fun _ => keeps_bind keeps_repo ?_
    intro status
    split_ifs
    · exact keeps_pure false
    · refine keeps_bind (keeps_executeItem env item) fun _ => keeps_bind keeps_ask ?_
      intro kept
      cases kept with
      | true => exact ih
      | false => exact keeps_pure true

omit [DecidableEq S] in
theorem keeps_refreshMediaServer (jobId : ℕ) :
    Keeps (Intact start) (env.refreshMediaServer jobId) :=
  keeps_bind keeps_repo fun _ => keeps_bind keeps_repo fun _ => keeps_pure ()

theorem keeps_runBody (jobId : ℕ) : Keeps (Intact start) (env.runBody jobId) := by
  have hgroups : ∀ groups, Keeps (Intact start) (env.finishDirectoryAssets groups) := fun groups =>
    keeps_foldlM (fun _ g => keeps_finishDirectory env g.1 g.2) () groups
  have hend : ∀ lockLost : Bool, Keeps (Intact start) (do
      env.refreshMediaServer jobId
      env.maybeCancelled jobId
      let status ← env.getJob jobId
      env.refreshJobCounters
      env.updateJobStatus jobId
        (if lockLost then .interrupted
        else if status = some .cancelling ∨ status = some .cancelled then .cancelled
        else .completed) : Rename S Unit) := by
    intro lockLost
    refine keeps_bind (keeps_refreshMediaServer env jobId) fun _ => ?_
    refine keeps_bind (keeps_maybeCancelled env jobId) fun _ => ?_
    exact keeps_bind keeps_repo fun _ => keeps_bind keeps_repo fun _ => keeps_repo
  refine keeps_bind keeps_repo fun _ => keeps_bind keeps_repo fun planned => ?_
  refine keeps_bind (keeps_runItems env jobId planned) ?_
  intro lockLost
  cases lockLost with
  | true => exact hend true
  | false =>
    refine keeps_bind (keeps_attempt ?_) fun _ => hend false
    exact keeps_bind keeps_repo fun items => hgroups _

theorem keeps_runJob (jobId : ℕ) : Keeps (Intact start) (env.runJob jobId) := by
  refine keeps_bind keeps_repo ?_
  intro status
  split_ifs
  · exact keeps_pure ()
  · refine keeps_bind keeps_ask ?_
    intro free
    cases free with
    | true =>
      exact keeps_handle (keeps_runBody env jobId) fun _ => keeps_bind keeps_repo fun _ => keeps_repo
    | false => exact keeps_pure ()

theorem keeps_rollbackItem : Keeps (Intact start) (env.rollbackItem item) := by
  rw [rollbackItem]
  dsimp only
  split_ifs
  · exact keeps_pure true
  · refine keeps_bind keeps_ask ?_
    intro backend
    cases backend with
    | none => exact keeps_bind keeps_repo fun _ => keeps_pure false
    | some b =>
      refine keeps_bind (keeps_rollbackPaths env b _ _ _) ?_
      intro ok
      cases ok with
      | true =>
        refine keeps_bind keeps_repo fun _ => keeps_bind keeps_repo fun _ => ?_
        exact keeps_bind keeps_repo fun _ => keeps_pure true
      | false => exact keeps_bind keeps_repo fun _ => keeps_pure false

theorem keeps_rollbackEntry (counts : ℕ × ℕ) :
    Keeps (Intact start) (env.rollbackEntry counts item) := by
  rw [rollbackEntry]
  split_ifs
  · exact keeps_pure counts
  · exact keeps_bind (keeps_rollbackItem env item) fun _ => keeps_pure _

theorem keeps_rollbackJob (jobId : ℕ) : Keeps (Intact start) (env.rollbackJob jobId) := by
  refine keeps_bind keeps_repo ?_
  intro status
  cases status with
  | none => exact keeps_pure _
  | some status =>
    dsimp only
    split_ifs
    · exact keeps_pure _
    · refine keeps_bind keeps_ask ?_
      intro free
      cases free with
      | false => exact keeps_pure _
      | true =>
        refine keeps_bind keeps_repo fun items => ?_
        refine keeps_bind (keeps_foldlM (fun counts item => keeps_rollbackEntry env item counts)
          (0, 0) items) fun counts => ?_
        refine keeps_bind keeps_repo fun _ => keeps_bind keeps_repo fun _ => ?_
        exact keeps_bind (keeps_refreshMediaServer env jobId) fun _ => keeps_pure _

end RenameEnv

/-! ## Calls on jobs -/

/-- A call on a job. -/
inductive RenameCall
  | run (jobId : ℕ)
  | rollback (jobId : ℕ)

namespace RenameCall

/-- The state after a call; its answer, or its exception, goes to the caller. -/
def perform (env : RenameEnv S) (w : RenameWorld S) : RenameCall → RenameWorld S
  | .run jobId => ((env.runJob jobId).run w).2
  | .rollback jobId => ((env.rollbackJob jobId).run w).2

theorem intact_perform (env : RenameEnv S) {start : S → MovableTree} {w : RenameWorld S}
    (hw : Intact start w) (call : RenameCall) : Intact start (call.perform env w) := by
  cases call with
  | run jobId => exact (RenameEnv.keeps_runJob env jobId).run hw
  | rollback jobId => exact (RenameEnv.keeps_rollbackJob env jobId).run hw

/-- **No content is lost or overwritten**: in every state that a sequence of jobs and rollbacks
goes through, every storage has the contents it started with. -/
theorem contents_kept (env : RenameEnv S) (trees : S → MovableTree) (rows : RenameRows)
    (calls : List RenameCall) (s : S) :
    let w := calls.foldl (perform env) { trees, rows }
    (w.trees s).contents = (trees s).contents ∧
      ∀ t ∈ w.passed, (t s).contents = (trees s).contents := by
  intro w
  have hstart : Intact trees { trees, rows } := by
    refine ⟨fun _ => rfl, ?_⟩
    intro t ht
    obtain rfl := List.mem_singleton.mp ht
    exact fun _ => rfl
  have hw : Intact trees w :=
    Run.invariant (Intact trees) hstart fun w hw call _ => intact_perform env hw call
  exact ⟨hw.trees s, fun t ht => hw.passed t ht s⟩

end RenameCall

end WolfNas
