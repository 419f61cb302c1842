import WolfNas.Rename.Followers
import WolfNas.Rename.Items

/-!
# A job renames its items

An item that is done has moved its main file and what belongs to it, has taken the rows of the
history and of the metadata along, and remembers its moves in its own row.

## Main definitions

* `RenameItem.historyMove`, `RenameItem.metadataMove` — the keys that an item changes.
* `HistoryIs`, `MetadataIs`, `settled` — the rows, by the items that are done.
* `Planned` — what the planner makes sure of.
* `Stage` — the invariant between two items.

## Main results

* `RenameEnv.says_executeItem` — an item is done, or lost.
* `RenameEnv.says_runItems` — all of them are done, or one is lost.
-/

namespace WolfNas

open Program

variable {S : Type} [DecidableEq S] {α : Type}

/-! ## Rows -/

def HistoryDest.key (x : HistoryDest) : Text × Text := (x.destPath, x.destFilename)

def MediaMetadata.key (x : MediaMetadata) : Text × Text := (x.backendId, x.path)

namespace RenameItem

/-- The directory and the name by which the history finds the file of an item, before and after. -/
def historyMove (x : RenameItem) : (Text × Text) × Text × Text :=
  ((dirnameOf x.oldPath, basenameOf x.oldPath), dirnameOf x.newPath, basenameOf x.newPath)

/-- The storage and the path by which its metadata are found, before and after. -/
def metadataMove (x : RenameItem) : (Text × Text) × Text × Text :=
  ((normalizeBackend x.backendId, normPath x.oldPath), normalizeBackend x.backendId,
    normPath x.newPath)

end RenameItem

/-- The keys of the history are those at the start, changed by the function. -/
def HistoryIs (f : Text × Text → Text × Text) (rows₀ rows : RenameRows) : Prop :=
  rows.history.map HistoryDest.key = rows₀.history.map fun x => f x.key

/-- The keys of the metadata are those at the start, changed by the function, and some more. -/
def MetadataIs (f : Text × Text → Text × Text) (rows₀ rows : RenameRows) : Prop :=
  (rows.metadata.map MediaMetadata.key).take rows₀.metadata.length =
    rows₀.metadata.map fun x => f x.key

variable {f : Text × Text → Text × Text} {rows₀ rows : RenameRows}

theorem HistoryIs.move (h : HistoryIs f rows₀ rows) (m : (Text × Text) × Text × Text)
    (category : Option Text) :
    HistoryIs (fun k => Relocation.go (f k) m) rows₀
      { rows with
        history := rows.history.map fun x =>
          if x.destPath = m.1.1 ∧ x.destFilename = m.1.2 then
            { destPath := m.2.1, destFilename := m.2.2, category := category.getD x.category }
          else x } := by
  have hmap := congrArg (List.map fun k => Relocation.go k m) h
  simp only [List.map_map] at hmap
  rw [HistoryIs, List.map_map]
  refine Eq.trans (List.map_congr_left fun x _ => ?_) hmap
  by_cases hx : x.destPath = m.1.1 ∧ x.destFilename = m.1.2
  · simp [hx, HistoryDest.key, Relocation.go]
  · simp [hx, HistoryDest.key, Relocation.go, Prod.ext_iff]

theorem MetadataIs.move (h : MetadataIs f rows₀ rows) (backendId old new : Text)
    (size : Option ℤ) (mtime : Option ℚ) :
    MetadataIs (fun k => Relocation.go (f k) ((backendId, old), backendId, new)) rows₀
      { rows with
        metadata := rows.metadata.map fun x =>
          if x.backendId = backendId ∧ x.path = old then
            { x with path := new, fileSize := size, fileMtime := mtime }
          else x } := by
  have hmap := congrArg (List.map fun k => Relocation.go k ((backendId, old), backendId, new)) h
  rw [List.map_take] at hmap
  simp only [List.map_map] at hmap
  rw [MetadataIs, List.map_map]
  refine Eq.trans (congrArg (List.take _) (List.map_congr_left fun x _ => ?_)) hmap
  by_cases hx : x.backendId = backendId ∧ x.path = old
  · simp [hx, MediaMetadata.key, Relocation.go]
  · simp [hx, MediaMetadata.key, Relocation.go, Prod.ext_iff]

theorem MetadataIs.append (h : MetadataIs f rows₀ rows) (data : MediaMetadata) :
    MetadataIs f rows₀ { rows with metadata := rows.metadata ++ [data] } := by
  have hlength := congrArg List.length h
  simp only [List.length_take, List.length_map] at hlength
  rw [MetadataIs, List.map_append, List.take_append_of_le_length]
  · exact h
  · rw [List.length_map]
    omega

/-- What leaves the keys. -/
theorem MetadataIs.write (h : MetadataIs f rows₀ rows) {g : MediaMetadata → MediaMetadata}
    (hg : ∀ x, (g x).key = x.key) :
    MetadataIs f rows₀ { rows with metadata := rows.metadata.map g } := by
  refine Eq.trans (congrArg (List.take _) ?_) h
  rw [List.map_map]
  exact List.map_congr_left fun x _ => hg x

/-- The row of an item that is done. -/
def Trail.row (e : Trail S) : RenameItem :=
  { e.item with status := .done, newPath := normPath e.item.newPath, auxMoves := e.moves }

/-- A row, once the items of the trails are done. -/
def settled (done : List (Trail S)) (x : RenameItem) : RenameItem :=
  ((done.find? fun e => e.item.id = x.id).map Trail.row).getD x

omit [DecidableEq S] in
theorem settled_id (done : List (Trail S)) (x : RenameItem) : (settled done x).id = x.id := by
  rw [settled]
  cases hfind : done.find? fun e => e.item.id = x.id with
  | none => rfl
  | some e => simpa [Trail.row] using List.find?_some hfind

section Settled

variable {done : List (Trail S)} {e : Trail S} {y : RenameItem}

omit [DecidableEq S] in
theorem settled_of_forall_ne (h : ∀ e ∈ done, e.item.id ≠ y.id) : settled done y = y := by
  rw [settled, List.find?_eq_none.mpr (by simpa using h)]
  rfl

omit [DecidableEq S] in
theorem settled_concat_self (h : ∀ c ∈ done, c.item.id ≠ y.id) (he : e.item.id = y.id) :
    settled (done ++ [e]) y = e.row := by
  rw [settled, List.find?_append, List.find?_eq_none.mpr (by simpa using h)]
  simp [he]

omit [DecidableEq S] in
theorem settled_concat_of_ne (he : e.item.id ≠ y.id) :
    settled (done ++ [e]) y = settled done y := by
  rw [settled, List.find?_append]
  simp [he, settled]

end Settled

/-! ## Planned jobs -/

/-- The items that a job is going to rename. -/
def RenameRows.planOf (rows : RenameRows) (jobId : ℕ) : List RenameItem :=
  rows.items.filter fun x => x.jobId = jobId ∧ x.status = .planned ∧ x.action = .rename

theorem mem_planOf {jobId : ℕ} {x : RenameItem} : x ∈ rows.planOf jobId ↔
    x ∈ rows.items ∧ x.jobId = jobId ∧ x.status = .planned ∧ x.action = .rename := by
  simp [RenameRows.planOf]

/-- What the planner makes sure of: it has found the files of the items by their paths, each once,
and has found nothing where they are to go.  The names of the files have no backslash. -/
structure Planned (env : RenameEnv S) (start : S → MovableTree) (rows : RenameRows)
    (jobId : ℕ) : Prop where
  /-- The table is in the order of the ids. -/
  ordered : (rows.items.map RenameItem.id).Pairwise (· < ·)
  fresh : ∀ x ∈ rows.items, x.jobId = jobId → x.status = .planned
  old : ∀ x ∈ rows.planOf jobId, ProperName (basenameOf x.oldPath) ∧ IsMedia (basenameOf x.oldPath)
  new : ∀ x ∈ rows.planOf jobId, ProperName (basenameOf x.newPath) ∧ IsMedia (basenameOf x.newPath)
  found : ∀ x ∈ rows.planOf jobId, ∀ b, env.handleOf x = some b →
    (start b.store).isFile (b.place (normPath x.oldPath)) = true
  apart : (rows.planOf jobId).Pairwise fun x y => ∀ b c, env.handleOf x = some b →
    env.handleOf y = some c → b.store = c.store →
      b.place (normPath x.oldPath) ≠ c.place (normPath y.oldPath)
  free : ∀ x ∈ rows.planOf jobId, ∀ y ∈ rows.planOf jobId, ∀ b c, env.handleOf x = some b →
    env.handleOf y = some c → b.store = c.store →
      b.place (normPath x.newPath) ≠ c.place (normPath y.oldPath)
  targets : ((rows.planOf jobId).map fun x => x.historyMove.2).Nodup
  changed : ∀ x ∈ rows.planOf jobId, x.historyMove.1 ≠ x.historyMove.2
  sound : ∀ s, FileTree.Sound (start s).files
  proper : ∀ s p, (start s).isFile p = true → ∃ d n, p = d ++ [n] ∧ ProperName n

/-- The rows while an item is under way. -/
structure Underway (rows₀ : RenameRows) (done : List (Trail S)) (x : RenameItem)
    (rows : RenameRows) : Prop where
  items : rows.items = rows₀.items.map fun y =>
    if y.id = x.id then { settled done y with status := .running } else settled done y
  history : HistoryIs (Relocation.forth (done.map fun e => e.item.historyMove)) rows₀ rows
  metadata : MetadataIs (Relocation.forth (done.map fun e => e.item.metadataMove)) rows₀ rows

section Planned

variable {env : RenameEnv S} {start : S → MovableTree} {jobId : ℕ}

omit [DecidableEq S] in
theorem Planned.eq_of_id_eq (h : Planned env start rows₀ jobId) {x y : RenameItem}
    (hx : x ∈ rows₀.items) (hy : y ∈ rows₀.items) (hid : x.id = y.id) : x = y :=
  List.inj_on_of_nodup_map (h.ordered.imp ne_of_lt) hx hy hid

omit [DecidableEq S] in
/-- The items of a plan have ids of their own. -/
theorem Planned.nodup (h : Planned env start rows₀ jobId) :
    ((rows₀.planOf jobId).map RenameItem.id).Pairwise (· < ·) :=
  h.ordered.sublist (List.filter_sublist.map _)

omit [DecidableEq S] in
theorem Planned.ne_of_split (h : Planned env start rows₀ jobId) {done : List (Trail S)}
    {x : RenameItem} {rest : List RenameItem}
    (hsplit : rows₀.planOf jobId = done.map Trail.item ++ x :: rest) :
    ∀ c ∈ done, c.item.id ≠ x.id := by
  intro c hc
  have hids := h.nodup
  rw [hsplit, List.map_append, List.pairwise_append] at hids
  exact (hids.2.2 _ (List.mem_map_of_mem (List.mem_map_of_mem hc)) _ (by simp)).ne

end Planned

/-- **The invariant** between two items: of those that are done, and those that are left. -/
structure Stage (env : RenameEnv S) (start : S → MovableTree) (rows₀ : RenameRows)
    (rest : List RenameItem) (done : List (Trail S)) (trees : S → MovableTree)
    (rows : RenameRows) : Prop where
  tracked : ∃ log, Tracked env start rest done log trees
  items : rows.items = rows₀.items.map (settled done)
  history : HistoryIs (Relocation.forth (done.map fun e => e.item.historyMove)) rows₀ rows
  metadata : MetadataIs (Relocation.forth (done.map fun e => e.item.metadataMove)) rows₀ rows

/-- What a job writes into its own row does not matter. -/
theorem Stage.of_jobs {env : RenameEnv S} {start trees : S → MovableTree}
    {rest : List RenameItem} {done : List (Trail S)}
    (h : Stage env start rows₀ rest done trees rows) (jobs : ℕ → Option JobStatus) :
    Stage env start rows₀ rest done trees { rows with jobs } :=
  ⟨h.tracked, h.items, h.history, h.metadata⟩

/-- Only the files of the storages matter. -/
theorem Stage.of_files {env : RenameEnv S} {start trees trees' : S → MovableTree}
    {rest : List RenameItem} {done : List (Trail S)}
    (h : Stage env start rows₀ rest done trees rows)
    (hfiles : ∀ s, (trees' s).files = (trees s).files) :
    Stage env start rows₀ rest done trees' rows := by
  obtain ⟨log, htracked⟩ := h.tracked
  exact ⟨⟨log, htracked.of_files hfiles⟩, h.items, h.history, h.metadata⟩

/-- An item is done, or lost. -/
def Handled (env : RenameEnv S) (start : S → MovableTree) (rows₀ : RenameRows)
    (rest : List RenameItem) (done : List (Trail S)) (x : RenameItem) : Assertion S :=
  fun trees rows => Lost x.id trees rows ∨
    ∃ e, e.item = x ∧ Stage env start rows₀ rest (done ++ [e]) trees rows

namespace RenameEnv

variable {env : RenameEnv S} {start : S → MovableTree} {jobId : ℕ} {rest : List RenameItem}
  {done : List (Trail S)} {x : RenameItem} {b : StorageHandle S} {R : RenameRows → Prop}

/-! ## Auxiliary files -/

/-- The main file of an item is moved, and some auxiliary files. -/
def Placing (env : RenameEnv S) (start : S → MovableTree) (rest : List RenameItem)
    (done : List (Trail S)) (x : RenameItem) (b : StorageHandle S) (R : RenameRows → Prop)
    (aux : List (Text × Text)) : Assertion S := fun trees rows =>
  R rows ∧ ∃ e log, e.item = x ∧ e.handle = b ∧ e.moves = aux ∧
    Tracked env start rest (done ++ [e]) log trees

omit [DecidableEq S] in
/-- A path whose name is that of a media file is not that of another file. -/
theorem place_ne {c : StorageHandle S} (hc : c.Regular) {path src : List Text} {p n : Text}
    (hp : ProperName (basenameOf p)) (hmedia : IsMedia (basenameOf p)) (hn : ¬IsMedia n)
    (hsrc : src = path ++ [n]) : c.place (normPath p) ≠ src := by
  intro heq
  have hplace := hc.place_eq (normPath p) (not_mem_normPath p) (by simpa using hp)
  rw [heq, hsrc, basenameOf_normPath] at hplace
  obtain ⟨-, hname⟩ := List.append_inj' hplace rfl
  rw [← List.singleton_inj.mp hname] at hmedia
  exact hn hmedia

section Steady

variable (henv : env.Steady) (hplan : Planned env start rows₀ jobId)
  (hsplit : rows₀.planOf jobId = done.map Trail.item ++ x :: rest)

include henv hplan hsplit

theorem says_moveAux {first : Trail S} (hitem : first.item = x) (hmoves : first.moves = []) :
    Triple (Says fun trees rows =>
        R rows ∧ ∃ log, Tracked env start rest (done ++ [first]) log trees)
      (env.moveAux first.handle (normPath x.oldPath) (normPath x.newPath))
      (fun aux => Says (Placing env start rest done x first.handle R aux)) fun _ _ => True := by
  subst hitem
  have hstay : ∀ trees rows, (R rows ∧ ∃ log, Tracked env start rest (done ++ [first]) log trees) →
      Placing env start rest done first.item first.handle R [] trees rows := by
    rintro trees rows ⟨hR, log, htracked⟩
    exact ⟨hR, first, log, rfl, rfl, hmoves, htracked⟩
  refine triple_bind (says_attempt (says_listDir henv)) fun entries => ?_
  cases entries with
  | error _ => exact says_pure hstay
  | ok entries =>
    -- What is left of the listing is still to be looked at.
    rintro w ⟨⟨hR, log, htracked⟩, n, l, hl, rfl⟩
    have hregular : ∀ e ∈ done ++ [first], e.handle.Regular := fun e he =>
      henv.regular _ _ (htracked.handles e he)
    have hreg := hregular first (by simp)
    have hdir : '\\' ∉ dirnameOf (normPath first.item.oldPath) := not_mem_dirnameOf _
    have hentries := entries_of_list hreg hdir htracked.moved.proper hl (env.arrange_perm n l)
    have hfree : ∀ path src n, src = path ++ [n] → ¬IsMedia n →
        Following.Free env start rest done [] first src := by
      intro path src n hsrc hn
      refine ⟨fun c hc _ => ?_, fun y hy c hc _ => ?_, fun _ _ _ _ _ _ _ _ _ g hg => ?_⟩
      · have hmem : c.item ∈ rows₀.planOf jobId := by
          rw [hsplit]
          rcases List.mem_append.mp hc with hc | hc
          · exact List.mem_append_left _ (List.mem_map_of_mem hc)
          · obtain rfl := List.mem_singleton.mp hc
            simp
        obtain ⟨hproper, hmedia⟩ := hplan.new c.item hmem
        exact place_ne (hregular c hc) hproper hmedia hn hsrc
      · have hmem : y ∈ rows₀.planOf jobId := by
          rw [hsplit]
          simp [hy]
        obtain ⟨hproper, hmedia⟩ := hplan.old y hmem
        exact place_ne (henv.regular _ _ hc) hproper hmedia hn hsrc
      · simp [undoLog] at hg
    have hloop := triple_foldlM (E := fun _ _ => True)
      (fun entries moved => Says fun trees rows => R rows ∧ Following env start rest done [] first
        (dirnameOf (normPath first.item.oldPath)) entries moved trees)
      (f := env.moveAuxEntry first.handle (normPath first.item.oldPath)
        (normPath first.item.newPath)) ?_
      ((env.arrange n l).map fun e =>
        (first.handle.childPath (dirnameOf (normPath first.item.oldPath)) e.1, e.2)) []
    · refine hloop.weaken (fun _ h => h) ?_ (fun _ _ h => h) w
        ⟨hR, ⟨first, log, rfl, rfl, by simp, htracked⟩, hentries⟩
      rintro aux w ⟨hR, ⟨e, log, hitem, hhandle, hmoves', htracked⟩, -⟩
      refine ⟨hR, e, log, hitem, hhandle, ?_, htracked⟩
      rw [hmoves', hmoves, List.nil_append]
    · intro en entries moved
      rw [moveAuxEntry]
      cases hname : (if en.2 then none else auxTarget (baseOf (normPath first.item.oldPath))
          (baseOf (normPath first.item.newPath)) en.1) with
      | none => exact says_pure fun trees rows h => ⟨h.1, h.2.tail⟩
      | some name =>
        have hfile : en.2 = false := by
          by_contra hdirectory
          simp [hdirectory] at hname
        rw [if_neg (by simp [hfile])] at hname
        have hproper := proper_auxTarget hname (plain_baseOf _)
        have hplain : '\\' ∉ dirnameOf (normPath first.item.newPath) := not_mem_dirnameOf _
        have hplace := hreg.place_join _ name hplain hproper
        refine says_moveInto henv ?_ hplace.symm rfl (fun trees rows h => ⟨h.1, h.2.tail⟩) ?_
        · exact fun trees trees' rows hfiles h => ⟨h.1, h.2.of_files hfiles⟩
        · intro trees rows t h hdst hmove
          have hlisted := h.2.2.1 en List.mem_cons_self hfile
          refine ⟨h.1, h.2.step hreg hfile ?_ (not_mem_join hplain hproper.2) ?_ hdst hmove⟩
          · exact hfree _ _ _ hlisted.place (not_isMedia_of_auxTarget hname)
          · exact ⟨name, by rw [hplace, dirnameOf_normPath], hproper⟩

/-! ## One item -/

omit hplan hsplit in
omit [DecidableEq S] in
/-- The row of an item says that it is not done. -/
theorem says_lose {A : Assertion S} (id : ℕ) {f : RenameItem → RenameItem}
    (hf : ∀ y, (f y).status ≠ .done) :
    Triple (Says A) (env.updateItem id f) (fun _ => Says (Lost id)) fun _ => Says A := by
  refine says_repo henv (B := fun _ => Lost id) ?_
  intro trees rows a rows' _ h y hy hid
  cases h
  obtain ⟨z, -, rfl⟩ := List.mem_map.mp hy
  split_ifs at hid ⊢ with hupdated
  · exact hf z
  · exact absurd hid hupdated

omit hplan hsplit in
omit [DecidableEq S] in
/-- An item fails. -/
theorem says_fail {A : Assertion S} (id : ℕ) (reason : Text) :
    Triple (Says A) (env.fail id reason) (fun _ => Says (Lost id)) fun _ => Says A :=
  says_lose henv id fun _ => by simp

/-- What becomes of the main file and the auxiliary files. -/
theorem says_placeItem (hb : env.handleOf x = some b) :
    Triple (Says (Stage env start rows₀ (x :: rest) done))
      (env.placeItem b x (normPath x.oldPath) (normPath x.newPath))
      (fun r => Says (match r with
        | none => Lost x.id
        | some aux => Placing env start rest done x b (Underway rows₀ done x) aux))
      fun _ _ => True := by
  have hx : x ∈ rows₀.planOf jobId := by simp [hsplit]
  have hreg := henv.regular _ _ hb
  refine triple_bind (says_pathExists henv) fun taken => ?_
  cases taken with
  | true => exact triple_bind (says_fail henv _ _).result fun _ => says_pure fun _ _ h => h
  | false =>
    have hA : OnFiles fun trees rows => Underway rows₀ done x rows ∧
        ∃ log, Tracked env start (x :: rest) done log trees :=
      fun trees trees' rows hfiles h => ⟨h.1, h.2.choose, h.2.choose_spec.of_files hfiles⟩
    have hplace := hreg.place_eq (normPath x.newPath) (not_mem_normPath _)
      (by simpa using (hplan.new x hx).1)
    refine triple_bind (says_repo henv (B := fun _ trees rows => (Underway rows₀ done x rows ∧
      ∃ log, Tracked env start (x :: rest) done log trees) ∧
        (trees b.store).isThere (b.place (normPath x.newPath)) = false) ?_).result fun _ => ?_
    · rintro trees rows a rows' ⟨hstage, hfree⟩ h
      cases h
      refine ⟨⟨⟨?_, hstage.history, hstage.metadata⟩, hstage.tracked⟩, hfree⟩
      rw [hstage.items, List.map_map]
      exact List.map_congr_left fun y _ => by simp [settled_id]
    · refine triple_bind (says_mkdir henv hA hplace.symm rfl).result fun _ => ?_
      refine triple_bind (says_move henv (C := fun trees rows => ∃ first, first.item = x ∧
        first.handle = b ∧ first.moves = [] ∧ Underway rows₀ done x rows ∧
          ∃ log, Tracked env start rest (done ++ [first]) log trees) ?_).result fun _ => ?_
      · rintro trees rows t ⟨hrows, log, htracked⟩ hdst hmove
        have hmains : ∀ e ∈ done, e.handle.store = b.store →
            e.handle.place (normPath e.item.newPath) ≠ b.place (normPath x.oldPath) := by
          intro e he hstore
          refine hplan.free e.item ?_ x hx _ _ (htracked.handles e he) hb hstore
          rw [hsplit]
          exact List.mem_append_left _ (List.mem_map_of_mem he)
        have holds : ∀ y ∈ rest, ∀ c, env.handleOf y = some c → c.store = b.store →
            c.place (normPath y.oldPath) ≠ b.place (normPath x.oldPath) := by
          intro y hy c hc hstore
          have hapart := hplan.apart
          rw [hsplit, List.pairwise_append, List.pairwise_cons] at hapart
          exact (hapart.2.1.1 y hy b c hb hc hstore.symm).symm
        obtain ⟨e, log', hitem, hhandle, hmoves, htracked'⟩ := htracked.begin hb hreg
          (hplan.old x hx).1 (hplan.new x hx).1 hdst hmove hmains holds
        exact ⟨e, hitem, hhandle, hmoves, hrows, log', htracked'⟩
      · rintro w ⟨first, hitem, rfl, hmoves, hrows⟩
        refine triple_bind (says_moveAux henv hplan hsplit hitem hmoves) (fun aux => ?_) w hrows
        exact says_pure fun _ _ h => h

omit hplan hsplit in
omit [DecidableEq S] in
/-- Writing metadata keeps what is said of their keys. -/
theorem says_upsertMetadata {A : Assertion S} {f : Text × Text → Text × Text}
    (data : MediaMetadata) (hA : ∀ trees rows metadata, A trees rows →
      MetadataIs f rows₀ { rows with metadata } → A trees { rows with metadata })
    (hmeta : ∀ trees rows, A trees rows → MetadataIs f rows₀ rows) :
    Triple (Says A) (env.upsertMetadata data) (fun _ => Says A) fun _ => Says A := by
  refine says_repo henv (B := fun _ => A) ?_
  intro trees rows a rows' h hrows
  cases hrows
  refine hA trees rows _ h ?_
  split_ifs
  · refine (hmeta trees rows h).write fun y => ?_
    dsimp only
    split_ifs with hy
    · exact Prod.ext hy.1.1.symm hy.1.2.symm
    · rfl
  · exact (hmeta trees rows h).append _

/-- **What an item writes down** after its moves. -/
theorem says_recordItem (aux : List (Text × Text)) :
    Triple (Says (Placing env start rest done x b (Underway rows₀ done x) aux))
      (env.recordItem b x (normPath x.oldPath) (normPath x.newPath) aux)
      (fun _ => Says fun trees rows =>
        ∃ e, e.item = x ∧ Stage env start rows₀ rest (done ++ [e]) trees rows)
      fun _ _ => True := by
  rintro w ⟨hrows, e, log, rfl, rfl, rfl, htracked⟩
  -- The history is changed first, and then the metadata.
  let A (hl ml : List ((Text × Text) × Text × Text)) : Assertion S := fun trees rows =>
    Tracked env start rest (done ++ [e]) log trees ∧
      (rows.items = rows₀.items.map fun y =>
        if y.id = e.item.id then { settled done y with status := .running } else settled done y) ∧
      HistoryIs (Relocation.forth hl) rows₀ rows ∧ MetadataIs (Relocation.forth ml) rows₀ rows
  let hl := done.map fun e => e.item.historyMove
  let ml := done.map fun e => e.item.metadataMove
  have hstart : Says (A hl ml) w := ⟨htracked, hrows.items, hrows.history, hrows.metadata⟩
  have hhistory : Triple (Says (A hl ml)) (env.updateHistoryDest
      (dirnameOf (normPath e.item.oldPath)) (basenameOf (normPath e.item.oldPath))
      (dirnameOf (normPath e.item.newPath)) (basenameOf (normPath e.item.newPath))
      (historyCategory e.item true)) (fun _ => Says (A (hl ++ [e.item.historyMove]) ml))
      fun _ _ => True := by
    refine (says_repo henv (B := fun _ => A (hl ++ [e.item.historyMove]) ml) ?_).result
    rintro trees rows a rows' ⟨htracked, hitems, hhistory, hmetadata⟩ h
    simp only [dirnameOf_normPath, basenameOf_normPath] at h
    cases h
    refine ⟨htracked, hitems, ?_, hmetadata⟩
    rw [Relocation.forth_concat]
    exact hhistory.move e.item.historyMove _
  have hmetadata : ∀ size mtime, Triple (Says (A (hl ++ [e.item.historyMove]) ml))
      (env.updateMetadataPath (normalizeBackend e.item.backendId) (normPath e.item.oldPath)
        (normPath e.item.newPath) size mtime)
      (fun _ => Says (A (hl ++ [e.item.historyMove]) (ml ++ [e.item.metadataMove])))
      fun _ _ => True := by
    intro size mtime
    refine (says_repo henv
      (B := fun _ => A (hl ++ [e.item.historyMove]) (ml ++ [e.item.metadataMove])) ?_).result
    rintro trees rows a rows' ⟨htracked, hitems, hhistory, hmetadata⟩ h
    dsimp only at h
    split_ifs at h
    cases h
    refine ⟨htracked, hitems, hhistory, ?_⟩
    rw [Relocation.forth_concat]
    exact hmetadata.move _ _ _ _ _
  refine triple_bind hhistory (fun _ => ?_) w hstart
  refine triple_bind (says_stat henv) fun stat => ?_
  refine triple_bind (hmetadata _ _) fun _ => ?_
  have hupsert := fun data => says_upsertMetadata henv
    (A := A (hl ++ [e.item.historyMove]) (ml ++ [e.item.metadataMove])) data
    (fun _ _ _ h hmetadata => ⟨h.1, h.2.1, h.2.2.1, hmetadata⟩) fun _ _ h => h.2.2.2
  refine triple_bind (triple_bind (says_stat henv) fun _ => hupsert _).result fun _ => ?_
  · refine (says_repo henv (B := fun _ trees rows =>
      ∃ e', e'.item = e.item ∧ Stage env start rows₀ rest (done ++ [e']) trees rows) ?_).result
    rintro trees rows a rows' ⟨htracked, hitems, hhistory, hmetadata⟩ h
    cases h
    refine ⟨e, rfl, ⟨log, htracked⟩, ?_, ?_, ?_⟩
    · rw [hitems, List.map_map]
      refine List.map_congr_left fun y hy => ?_
      by_cases hid : y.id = e.item.id
      · have hx : e.item ∈ rows₀.planOf jobId := by simp [hsplit]
        obtain rfl := hplan.eq_of_id_eq hy (mem_planOf.mp hx).1 hid
        have hne := hplan.ne_of_split hsplit
        rw [settled_concat_self hne rfl]
        simp [settled_of_forall_ne hne, Trail.row]
      · rw [settled_concat_of_ne (Ne.symm hid)]
        simp [hid, settled_id]
    · rw [List.map_append]
      exact hhistory
    · rw [List.map_append]
      exact hmetadata

omit hplan hsplit in
/-- After an exception an item is lost. -/
theorem says_recoverItem {P : RenameWorld S → Prop} (oldPath newPath : Text)
    (aux : List (Text × Text)) (e : Text) :
    Triple P (env.recoverItem b x oldPath newPath aux e) (fun _ => Says (Lost x.id))
      fun _ _ => True := by
  refine triple_bind (triple_true _) fun _ => triple_bind (triple_true _) fun _ => ?_
  refine triple_bind (triple_true _) fun ok => ?_
  refine (says_lose henv (A := fun _ _ => True) x.id fun y => ?_).result
  split_ifs <;> simp

/-- **An item is renamed**, or lost. -/
theorem says_renameItem (hb : env.handleOf x = some b) :
    Triple (Says (Stage env start rows₀ (x :: rest) done))
      (env.renameItem b x (normPath x.oldPath) (normPath x.newPath))
      (fun _ => Says (Handled env start rows₀ rest done x)) fun _ _ => True := by
  have hlost : ∀ {P : RenameWorld S → Prop} (aux : List (Text × Text)) (e : Text), Triple P
      (env.recoverItem b x (normPath x.oldPath) (normPath x.newPath) aux e)
      (fun _ => Says (Handled env start rows₀ rest done x)) fun _ _ => True := fun aux e =>
    (says_recoverItem henv _ _ aux e).weaken (fun _ h => h) (fun _ _ h => .inl h) fun _ _ h => h
  refine triple_bind (triple_attempt (says_placeItem henv hplan hsplit hb)) fun r => ?_
  cases r with
  | error e => exact hlost [] e
  | ok placed =>
    cases placed with
    | none => exact triple_pure () fun _ h => .inl h
    | some aux =>
      refine triple_handle (E := fun _ _ => True) ?_ (hlost aux)
      exact (says_recordItem henv hplan hsplit aux).weaken (fun _ h => h) (fun _ _ h => .inr h)
        fun _ _ h => h

omit hplan hsplit in
omit [DecidableEq S] in
theorem says_acquireAll {A : Assertion S} (keys : List Text) :
    Triple (Says A) (env.acquireAll keys) (fun _ => Says A) fun _ => Says A := by
  induction keys with
  | nil => exact says_pure fun _ _ h => h
  | cons key keys ih =>
    refine triple_bind ((says_ask henv).weaken (fun _ h => h) (fun _ _ h => h.2) fun _ _ h => h)
      fun free => ?_
    split_ifs
    · exact ih
    · exact says_pure fun _ _ h => h

/-- **An item is done, or lost.** -/
theorem says_executeItem :
    Triple (Says (Stage env start rows₀ (x :: rest) done)) (env.executeItem x)
      (fun _ => Says (Handled env start rows₀ rest done x)) fun _ _ => True := by
  have hfail : ∀ {A : Assertion S} reason, Triple (Says A) (env.fail x.id reason)
      (fun _ => Says (Handled env start rows₀ rest done x)) fun _ _ => True := fun reason =>
    (says_fail henv x.id reason).weaken (fun _ h => h) (fun _ _ h => .inl h) fun _ _ _ => trivial
  refine triple_bind (says_ask henv) fun backend => ?_
  rintro w ⟨⟨n, hn⟩, hw⟩
  have hb : backend = env.handleOf x := hn.trans (henv.same n _)
  cases backend with
  | none => exact hfail _ w hw
  | some b =>
    dsimp only
    split_ifs
    · exact hfail _ w hw
    · exact hfail _ w hw
    · refine triple_bind (says_stat henv) (fun stat => ?_) w hw
      cases stat with
      | none => exact hfail _
      | some st =>
        dsimp only
        split_ifs
        · exact hfail _
        · refine triple_bind (says_pathExists henv) fun taken => ?_
          split_ifs
          · exact hfail _
          · refine triple_bind (says_acquireAll henv _).result fun free => ?_
            split_ifs
            · refine (says_renameItem henv hplan hsplit hb.symm).weaken (fun _ h => h.1)
                (fun _ _ h => h) fun _ _ h => h
            · exact hfail _

omit henv in
/-- An item that is left is not done. -/
theorem lost_of_stage {trees : S → MovableTree} {rows : RenameRows}
    (h : Stage env start rows₀ (x :: rest) done trees rows) : Lost x.id trees rows := by
  have hx : x ∈ rows₀.planOf jobId := by simp [hsplit]
  have hmem := (mem_planOf.mp hx).1
  intro y hy hid
  rw [h.items] at hy
  obtain ⟨z, hz, rfl⟩ := List.mem_map.mp hy
  rw [settled_id] at hid
  obtain rfl := hplan.eq_of_id_eq hz hmem hid
  rw [settled_of_forall_ne (hplan.ne_of_split hsplit)]
  rw [(mem_planOf.mp hx).2.2.1]
  simp

end Steady

/-! ## All items -/

/-- Some item of the plan is lost, that is not among the given ones. -/
def LostBut (rows₀ : RenameRows) (jobId : ℕ) (rest : List RenameItem) : Assertion S :=
  fun trees rows => ∃ x ∈ rows₀.planOf jobId, (∀ y ∈ rest, y.id ≠ x.id) ∧ Lost x.id trees rows

/-- The items before the given ones are done. -/
def Reached (env : RenameEnv S) (start : S → MovableTree) (rows₀ : RenameRows) (jobId : ℕ)
    (rest : List RenameItem) : Assertion S :=
  fun trees rows => ∃ done, rows₀.planOf jobId = done.map Trail.item ++ rest ∧
    Stage env start rows₀ rest done trees rows

omit [DecidableEq S] in
theorem says_maybeCancelled {A : Assertion S} {E : Text → RenameWorld S → Prop}
    (hA : ∀ trees rows jobs, A trees rows → A trees { rows with jobs }) :
    Triple (Says A) (env.maybeCancelled jobId) (fun _ => Says A) E := by
  intro w hw
  change A w.trees (if env.cancels w.clock then (cancelJob jobId w.rows).2 else w.rows)
  split_ifs
  · rw [cancelJob]
    split
    · exact hA _ _ _ hw
    · exact hA _ _ _ hw
    · exact hw
  · exact hw

omit [DecidableEq S] in
theorem says_getJob (henv : env.Steady) {A : Assertion S} :
    Triple (Says A) (env.getJob jobId) (fun _ => Says A) fun _ => Says A := by
  refine says_repo henv (B := fun _ => A) ?_
  intro trees rows a rows' h hrows
  cases hrows
  exact h

/-- **All items are done, or one is lost.** -/
theorem says_runItems (henv : env.Steady) (hplan : Planned env start rows₀ jobId)
    (rest : List RenameItem) :
    Triple (Says (Reached env start rows₀ jobId rest)) (env.runItems jobId rest)
      (fun _ => Says fun trees rows => LostBut rows₀ jobId [] trees rows ∨
        Reached env start rows₀ jobId [] trees rows) fun _ _ => True := by
  induction rest with
  | nil => exact says_pure fun _ _ h => .inr h
  | cons x rest ih =>
    rintro w ⟨done, hsplit, hstage⟩
    have hx : x ∈ rows₀.planOf jobId := by simp [hsplit]
    have hrest : ∀ y ∈ rest, y.id ≠ x.id := by
      intro y hy
      have hids := hplan.nodup
      rw [hsplit, List.map_append, List.pairwise_append, List.map_cons, List.pairwise_cons] at hids
      exact (hids.2.1.1 _ (List.mem_map_of_mem hy)).ne'
    have hstop : ∀ lost : Bool, Triple (Says (Stage env start rows₀ (x :: rest) done))
        (Pure.pure lost : Rename S Bool) (fun _ => Says fun trees rows =>
          LostBut rows₀ jobId [] trees rows ∨ Reached env start rows₀ jobId [] trees rows)
        fun _ _ => True := fun lost =>
      says_pure fun trees rows h =>
        .inl ⟨x, hx, by simp, lost_of_stage hplan hsplit h⟩
    refine triple_bind (says_maybeCancelled fun _ _ jobs h => h.of_jobs jobs) (fun _ => ?_) w hstage
    refine triple_bind (says_getJob henv).result fun status => ?_
    split_ifs
    · exact hstop false
    · refine triple_bind (says_executeItem henv hplan hsplit) fun _ => ?_
      refine triple_bind (says_ask henv) fun kept => ?_
      rintro w ⟨-, hlost | ⟨e, rfl, hstage'⟩⟩
      · -- The item is lost, and stays so.
        cases kept with
        | true =>
          refine (lost_runItems henv jobId rest hrest).weaken (fun _ h => h) (fun _ _ h => ?_)
            (fun _ _ _ => trivial) w hlost
          exact .inl ⟨x, hx, by simp, h⟩
        | false => exact .inl ⟨x, hx, by simp, hlost⟩
      · have hsplit' : rows₀.planOf jobId = (done ++ [e]).map Trail.item ++ rest := by
          simp [hsplit]
        cases kept with
        | true => exact ih w ⟨_, hsplit', hstage'⟩
        | false =>
          cases rest with
          | nil => exact .inr ⟨_, hsplit', hstage'⟩
          | cons y rest =>
            have hy : y ∈ rows₀.planOf jobId := by simp [hsplit]
            exact .inl ⟨y, hy, by simp, lost_of_stage hplan hsplit' hstage'⟩

end RenameEnv

end WolfNas
