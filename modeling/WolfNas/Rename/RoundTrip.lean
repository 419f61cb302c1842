import WolfNas.Rename.Rollback

/-!
# A job and its rollback

A job that has done all its items and a rollback of it that fails nowhere leave every file where
it was.  The rows of the history and of the metadata are searched by their paths, so a row that
had the new path of an item all along is taken for the item's own when the item is taken back.

## Main definitions

* `Finished`, `RolledBack` — what the job and the rollback say of themselves.
* `Restored` — the files and the rows are where they were.
* `posixHandle` — a storage of POSIX paths.

## Main results

* `regular_posixHandle` — such a storage resolves paths name by name.
* `restored_iff` — everything is where it was, unless an item goes to the path of another row.
-/

namespace WolfNas

open Text Program

variable {S : Type} [DecidableEq S]

/-- The storages and the rows when a job starts. -/
def RenameWorld.atStart (start : S → MovableTree) (rows : RenameRows) : RenameWorld S :=
  { trees := start, rows := rows }

/-- The world after a job has run. -/
def afterJob (env : RenameEnv S) (start : S → MovableTree) (rows : RenameRows) (jobId : ℕ) :
    RenameWorld S :=
  ((env.runJob jobId).run (.atStart start rows)).2

/-- The world after the job has run and is rolled back. -/
def afterRollback (env : RenameEnv S) (start : S → MovableTree) (rows : RenameRows) (jobId : ℕ) :
    RenameWorld S :=
  ((env.rollbackJob jobId).run (afterJob env start rows jobId)).2

/-- The job has run to its end and is completed, and every item of its plan is done. -/
structure Finished (env : RenameEnv S) (start : S → MovableTree) (rows : RenameRows)
    (jobId : ℕ) : Prop where
  ran : ((env.runJob jobId).run (.atStart start rows)).1 = .ok ()
  completed : (afterJob env start rows jobId).rows.jobs jobId = some .completed
  items : ∀ x ∈ rows.planOf jobId, ∃ y ∈ (afterJob env start rows jobId).rows.items,
    y.id = x.id ∧ y.status = .done

/-- The rollback says that no item has failed. -/
def RolledBack (env : RenameEnv S) (start : S → MovableTree) (rows : RenameRows) (jobId : ℕ) :
    Prop :=
  ∃ n, ((env.rollbackJob jobId).run (afterJob env start rows jobId)).1 = .ok (.done n 0)

/-- All files are where they were, and the rows of the history and of the metadata have the
paths they had; there may be more rows of metadata. -/
structure Restored (start : S → MovableTree) (rows : RenameRows) (w : RenameWorld S) : Prop where
  files : ∀ s, (w.trees s).files = (start s).files
  history : HistoryIs id rows w.rows
  metadata : MetadataIs id rows w.rows

/-- No item of the plan goes to the path that a row has, unless an item before it takes the row
along. -/
structure Uncaught (rows : RenameRows) (jobId : ℕ) : Prop where
  history : ∀ x ∈ rows.history,
    ¬Relocation.Caught x.key ((rows.planOf jobId).map RenameItem.historyMove)
  metadata : ∀ x ∈ rows.metadata,
    ¬Relocation.Caught x.key ((rows.planOf jobId).map RenameItem.metadataMove)

variable {env : RenameEnv S} {start trees : S → MovableTree} {rows₀ rows : RenameRows} {jobId : ℕ}
  {done : List (Trail S)} {f : Text × Text → Text × Text}

/-! ## Keys of the plan -/

section Planned

variable (hplan : Planned env start rows₀ jobId)

include hplan

omit [DecidableEq S] in
theorem Planned.nodup_metadata :
    (((rows₀.planOf jobId).map RenameItem.metadataMove).map Prod.snd).Nodup := by
  rw [List.map_map, List.Nodup, List.pairwise_map]
  refine (List.pairwise_map.mp hplan.targets).imp ?_
  intro x y hne heq
  have hpath : normPath x.newPath = normPath y.newPath := congrArg Prod.snd heq
  refine hne ?_
  simp only [RenameItem.historyMove]
  rw [← dirnameOf_normPath x.newPath, ← basenameOf_normPath x.newPath, hpath, dirnameOf_normPath,
    basenameOf_normPath]

omit [DecidableEq S] in
theorem Planned.changed_metadata : ∀ m ∈ (rows₀.planOf jobId).map RenameItem.metadataMove,
    m.1 ≠ m.2 := by
  intro m hm heq
  obtain ⟨x, hx, rfl⟩ := List.mem_map.mp hm
  have hpath : normPath x.oldPath = normPath x.newPath := congrArg Prod.snd heq
  refine hplan.changed x hx ?_
  simp only [RenameItem.historyMove]
  rw [← dirnameOf_normPath x.oldPath, ← basenameOf_normPath x.oldPath, hpath, dirnameOf_normPath,
    basenameOf_normPath]

end Planned

/-! ## Everything is taken back -/

theorem historyIs_id_iff (h : HistoryIs f rows₀ rows) :
    HistoryIs id rows₀ rows ↔ ∀ x ∈ rows₀.history, f x.key = x.key := by
  rw [HistoryIs, h]
  exact List.map_inj_left

theorem metadataIs_id_iff (h : MetadataIs f rows₀ rows) :
    MetadataIs id rows₀ rows ↔ ∀ x ∈ rows₀.metadata, f x.key = x.key := by
  rw [MetadataIs, h]
  exact List.map_inj_left

/-- **Nothing is left to take back**: the files are where they were, and so are the rows that no
item has caught. -/
theorem restored_iff_of_returning (hplan : Planned env start rows₀ jobId)
    (hdone : rows₀.planOf jobId = done.map Trail.item) {w : RenameWorld S}
    (h : Says (Returning start rows₀ done []) w) :
    Restored start rows₀ w ↔ Uncaught rows₀ jobId := by
  obtain ⟨⟨pos, hplaced, -, -, hpos⟩, ⟨f, hf, hcomesf⟩, g, hg, hcomesg⟩ := h
  obtain rfl : pos = Prod.snd := hpos
  have hfiles : ∀ s, (w.trees s).files = (start s).files := by
    intro s
    rw [hplaced.files]
    exact List.map_id'' (fun _ => rfl) _
  have hmoves : historyMoves done = (rows₀.planOf jobId).map RenameItem.historyMove := by
    rw [hdone, List.map_map]
    rfl
  have hmoves' : metadataMoves done = (rows₀.planOf jobId).map RenameItem.metadataMove := by
    rw [hdone, List.map_map]
    rfl
  have hchanged : ∀ m ∈ (rows₀.planOf jobId).map RenameItem.historyMove, m.1 ≠ m.2 := by
    intro m hm
    obtain ⟨x, hx, rfl⟩ := List.mem_map.mp hm
    exact hplan.changed x hx
  have htargets := hplan.targets
  have hhistory : ∀ k, f k = k ↔
      ¬Relocation.Caught k ((rows₀.planOf jobId).map RenameItem.historyMove) := by
    intro k
    rw [← Relocation.undone_forth_iff (by rwa [List.map_map]) hchanged, ← hmoves, ← hcomesf k]
    rfl
  have hmetadata : ∀ k, g k = k ↔
      ¬Relocation.Caught k ((rows₀.planOf jobId).map RenameItem.metadataMove) := by
    intro k
    rw [← Relocation.undone_forth_iff hplan.nodup_metadata hplan.changed_metadata, ← hmoves',
      ← hcomesg k]
    rfl
  constructor
  · intro hrestored
    refine ⟨fun x hx => ?_, fun x hx => ?_⟩
    · exact (hhistory x.key).mp ((historyIs_id_iff hf).mp hrestored.history x hx)
    · exact (hmetadata x.key).mp ((metadataIs_id_iff hg).mp hrestored.metadata x hx)
  · intro huncaught
    refine ⟨hfiles, (historyIs_id_iff hf).mpr fun x hx => ?_,
      (metadataIs_id_iff hg).mpr fun x hx => ?_⟩
    · exact (hhistory x.key).mpr (huncaught.history x hx)
    · exact (hmetadata x.key).mpr (huncaught.metadata x hx)

/-- A finished job has done all items of its plan. -/
theorem stage_of_finished (henv : env.Steady) (hplan : Planned env start rows₀ jobId)
    (hfinished : Finished env start rows₀ jobId) :
    ∃ done, rows₀.planOf jobId = done.map Trail.item ∧
      Says (Stage env start rows₀ [] done) (afterJob env start rows₀ jobId) := by
  have hended : RenameEnv.Ended env start rows₀ jobId (afterJob env start rows₀ jobId).trees
      (afterJob env start rows₀ jobId).rows :=
    (RenameEnv.says_runJob henv hplan).of_ok ⟨rfl, rfl⟩ hfinished.ran hfinished.completed
  rcases hended with ⟨x, hx, -, hlost⟩ | ⟨done, hdone, hstage⟩
  · obtain ⟨y, hy, hid, hstatus⟩ := hfinished.items x hx
    exact absurd hstatus (hlost y hy hid)
  · exact ⟨done, by rw [hdone, List.append_nil], hstage⟩

/-! ## One file -/

/-- A storage of POSIX paths. -/
def posixHandle (s : S) : StorageHandle S where
  store := s
  place := Path.parts
  childPath := Path.join

theorem normPath_of_not_mem {p : Text} (h : '\\' ∉ p) : normPath p = Path.normpath p := by
  rw [normPath, slashed_eq_self h]

theorem parts_join_proper {p n : Text} (hn : ProperName n) :
    Path.parts (Path.join p n) = Path.parts p ++ [n] := by
  cases p with
  | nil =>
    have hhead : n.head? ≠ some '/' := fun h => hn.1.2.2.2 (List.mem_of_mem_head? h)
    have hnil : Path.parts [] = [] := by decide
    rw [Path.join, if_neg (by simpa using hhead), if_pos (by simp), List.nil_append, hnil,
      List.nil_append, Path.parts_of_isName hn.1]
  | cons c p =>
    have hnames : ∀ s ∈ [n], Path.IsName s := by simpa using hn.1
    have hparts := Path.parts_join_names (List.cons_ne_nil c p) hnames
    rwa [List.intercalate_singleton] at hparts

omit [DecidableEq S] in
/-- **A storage of POSIX paths** resolves paths name by name. -/
theorem regular_posixHandle (s : S) : (posixHandle s).Regular where
  place_normPath := by
    intro p hp
    rw [normPath_of_not_mem hp]
    exact Path.parts_normpath p
  place_join := fun p n _ hn => parts_join_proper hn
  place_childPath := fun p n _ hn => parts_join_proper hn
  basenameOf_childPath := by
    intro p n hp hn
    change basenameOf (Path.join p n) = n
    rw [basenameOf, normPath_of_not_mem (not_mem_join hp hn.2)]
    exact Path.basename_normpath (parts_join_proper hn)
  not_mem_childPath := fun p n hp hn => not_mem_join hp hn.2
  place_eq := by
    intro p hp hn
    change Path.parts p = Path.parts (dirnameOf p) ++ [basenameOf p]
    rw [basenameOf, normPath_of_not_mem hp] at hn
    rw [basenameOf, dirnameOf, normPath_of_not_mem hp]
    rcases List.eq_nil_or_concat (Path.parts p) with hnil | ⟨l, t, hparts⟩
    · exact absurd hnil (Path.parts_ne_nil hn.1)
    · rw [List.concat_eq_append] at hparts
      rw [Path.basename_normpath hparts] at hn ⊢
      rw [Path.parts_dirname hparts hn.1.2.2.1, hparts]

/-- One file, in the directory of a library. -/
def oneFile : Unit → MovableTree := fun _ =>
  { files := [([of "lib", of "A.mkv"], { content := of "a" })], nodup := List.nodup_singleton _ }

/-- No call fails. -/
def calmEnv : RenameEnv Unit where
  resolve := fun _ id => if id = of "local" then some (posixHandle ()) else none
  arrange_perm := fun _ _ => .refl _

theorem steady_calmEnv : calmEnv.Steady where
  calm := fun _ => rfl
  same := fun _ _ => rfl
  regular := by
    intro id b hb
    simp only [calmEnv] at hb
    split_ifs at hb
    cases hb
    exact regular_posixHandle ()

/-- An item that renames the file. -/
def renameA : RenameItem :=
  { id := 1, jobId := 1, backendId := of "local", root := of "/lib", oldPath := of "/lib/A.mkv",
    newPath := of "/lib/B.mkv" }

/-- A job with the item, and one row of the history, of a file of the name. -/
def oneRename (name : Text) : RenameRows where
  jobs := fun _ => some .planned
  items := [renameA]
  history := [{ destPath := of "/lib", destFilename := name }]

theorem planned_oneRename (name : Text) : Planned calmEnv oneFile (oneRename name) 1 := by
  have hplan : (oneRename name).planOf 1 = [renameA] := rfl
  have hhandle : calmEnv.handleOf renameA = some (posixHandle ()) := by
    have hid : normalizeBackend renameA.backendId = of "local" := by decide +kernel
    simp [RenameEnv.handleOf, hid, calmEnv]
  constructor
  · exact List.pairwise_singleton _ _
  · intro x hx _
    obtain rfl := List.mem_singleton.mp hx
    rfl
  · rw [hplan]
    decide +kernel
  · rw [hplan]
    decide +kernel
  · intro x hx b hb
    rw [hplan] at hx
    obtain rfl := List.mem_singleton.mp hx
    obtain rfl := Option.some.inj (hhandle.symm.trans hb)
    decide +kernel
  · rw [hplan]
    exact List.pairwise_singleton _ _
  · intro x hx y hy b c hb hc _
    rw [hplan] at hx hy
    obtain rfl := List.mem_singleton.mp hx
    obtain rfl := List.mem_singleton.mp hy
    obtain rfl := Option.some.inj (hhandle.symm.trans hb)
    obtain rfl := Option.some.inj (hhandle.symm.trans hc)
    decide +kernel
  · rw [hplan]
    decide +kernel
  · rw [hplan]
    decide +kernel
  · intro s f hf g hg _
    rw [List.mem_singleton.mp hf, List.mem_singleton.mp hg]
  · intro s p hp
    obtain ⟨f, hf, rfl⟩ := FileTree.isFile_iff.mp hp
    obtain rfl := List.mem_singleton.mp hf
    exact ⟨[of "lib"], of "A.mkv", rfl, by decide⟩

/-- The row has the name of the file before, or the name that it gets. -/
theorem finished_oneRename {name : Text} (h : name ∈ [of "A.mkv", of "B.mkv"]) :
    Finished calmEnv oneFile (oneRename name) 1 := by
  constructor
  · revert name
    decide +kernel
  · revert name
    decide +kernel
  · revert name
    decide +kernel

theorem rolledBack_oneRename {name : Text} (h : name ∈ [of "A.mkv", of "B.mkv"]) :
    RolledBack calmEnv oneFile (oneRename name) 1 := by
  refine ⟨1, ?_⟩
  revert name
  decide +kernel

/-! ## The round trip -/

/-- **A job and its rollback**: the files are where they were, and so is everything, unless an item
goes to the path of another row. -/
theorem restored_iff (henv : env.Steady) (hplan : Planned env start rows₀ jobId)
    (hfinished : Finished env start rows₀ jobId) (hrolled : RolledBack env start rows₀ jobId) :
    Restored start rows₀ (afterRollback env start rows₀ jobId) ↔ Uncaught rows₀ jobId := by
  obtain ⟨done, hdone, hstage⟩ := stage_of_finished henv hplan hfinished
  obtain ⟨n, hn⟩ := hrolled
  exact restored_iff_of_returning hplan hdone
    ((RenameEnv.says_rollbackJob henv hplan hdone).of_ok hstage hn n rfl)

/-- A row that has the path of the file before is taken along, and comes back. -/
theorem restored_iff_renameA :
    Restored oneFile (oneRename (of "A.mkv"))
        (afterRollback calmEnv oneFile (oneRename (of "A.mkv")) 1) ↔
      Uncaught (oneRename (of "A.mkv")) 1 :=
  restored_iff steady_calmEnv (planned_oneRename _) (finished_oneRename (by simp))
    (rolledBack_oneRename (by simp))

/-- A row that has the path that the file gets, of a file that is gone, ends with the path of the
file before. -/
theorem staleRow_not_restored :
    ¬∀ (env : RenameEnv Unit) (start : Unit → MovableTree) (rows : RenameRows) (jobId : ℕ),
      env.Steady → Planned env start rows jobId → Finished env start rows jobId →
        RolledBack env start rows jobId →
          Restored start rows (afterRollback env start rows jobId) := by
  intro h
  have hrestored := h calmEnv oneFile (oneRename (of "B.mkv")) 1 steady_calmEnv
    (planned_oneRename _) (finished_oneRename (by simp)) (rolledBack_oneRename (by simp))
  have hhistory := hrestored.history
  rw [HistoryIs] at hhistory
  revert hhistory
  decide +kernel

end WolfNas
