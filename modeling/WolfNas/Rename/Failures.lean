import WolfNas.Rename.Undoing
import WolfNas.Rename.RoundTrip

/-!
# When an item fails

After an exception an item takes its moves back, the last one first, and then says that it failed.
The moves of auxiliary files are known to it once the loop that makes them has come to its end, and
only as far as their calls return; and the history is told of the way back only if that call does
not raise in turn.

## Main definitions

* `RenameEnv.auxTurns` — the turns of the loop over the auxiliary files.
* `RenameEnv.Accountable`, `FailsCleanly` — no exception hides what was done.
* `RestoredOnFailure` — a failed item leaves its files and its history as they were.

## Main results

* `RenameEnv.listed_placeItem`, `RenameEnv.undoable_recordItem` — the two halves of an item.
* `RenameEnv.traceless_executeItem`, `restoredOnFailure` — an item that fails leaves no trace.
-/

namespace WolfNas

open Program Text

variable {S : Type} [DecidableEq S] {α : Type}

/-! ## What is not lost -/

/-- A turn of the loop of `_move_aux`: the entry it comes to, and the moves made before. -/
structure AuxTurn (S : Type) where
  entry : Text × Bool
  moved : List (Text × Text)
  world : RenameWorld S

namespace RenameEnv

section Conditions

variable (env : RenameEnv S) (b : StorageHandle S) (item : RenameItem) (oldPath newPath : Text)

/-- The turns of the loop of `_move_aux`. -/
def auxTurns : List (Text × Bool) → List (Text × Text) → RenameWorld S → List (AuxTurn S)
  | [], _, _ => []
  | entry :: entries, moved, w =>
    ⟨entry, moved, w⟩ :: match (env.moveAuxEntry b oldPath newPath moved entry).run w with
      | (.ok moved, w) => auxTurns entries moved w
      | (.error _, _) => []

/-- No exception of the turn hides a move: the question about its target raises only before the
first move, and its move does not raise once it has taken effect. -/
structure Accounted (turn : AuxTurn S) : Prop where
  question : ∀ name, turn.entry.2 = false →
    auxTarget (baseOf oldPath) (baseOf newPath) turn.entry.1 = some name →
      env.fault turn.world.clock ≠ .none → turn.moved = []
  move : ∀ name w w', turn.entry.2 = false →
    auxTarget (baseOf oldPath) (baseOf newPath) turn.entry.1 = some name →
      (env.pathExists b (Path.join (dirnameOf newPath) name)).run turn.world = (.ok false, w) →
        (env.mkdir b (dirnameOf newPath)).run w = (.ok (), w') → env.fault w'.clock ≠ .after

/-- `_execute_item` under its locks, up to the listing in `_move_aux`. -/
def beginAux : Rename S (List (Text × Bool)) := do
  let _ ← env.pathExists b newPath
  env.updateItem item.id fun x => { x with status := .running }
  env.mkdir b (dirnameOf newPath)
  env.move b oldPath newPath
  env.listDir b (dirnameOf oldPath)

/-- The names of the files in a directory can be written down as paths. -/
def ProperIn (dir : List Text) (t : MovableTree) : Prop :=
  ∀ n, t.isFile (dir ++ [n]) = true → ProperName n

/-- Nothing that an item has done by the time it fails is out of its handler's sight. -/
structure Accountable (w : RenameWorld S) : Prop where
  proper : ProperIn (b.place (dirnameOf oldPath)) (w.trees b.store)
  turns : ∀ entries w', (env.beginAux b item oldPath newPath).run w = (.ok entries, w') →
    ∀ turn ∈ env.auxTurns b oldPath newPath entries [] w', env.Accounted b oldPath newPath turn
  /-- The history is told of the way back if it was told of the way there. -/
  history : ∀ aux e w' w'', (env.placeItem b item oldPath newPath).run w = (.ok (some aux), w') →
    (env.recordItem b item oldPath newPath aux).run w' = (.error e, w'') →
      env.fault w'.clock ≠ .before → env.fault w''.clock ≠ .before

end Conditions

section Auxiliary

variable {env : RenameEnv S} {b : StorageHandle S} {start : S → MovableTree} {id : ℕ}
  {moves moved : List (Text × Text)} {history : List HistoryDest} {dir : List Text}
  {oldPath newPath src dst old new : Text} {main : Text × Text}

/-- A move that does not raise once it has taken effect. -/
theorem post_move {w : RenameWorld S} (hfault : env.fault w.clock ≠ .after)
    (hold : b.place old = b.place src) (hnew : b.place new = b.place dst)
    (hw : Says (Undoable start b id moves history) w)
    (hfree : (w.trees b.store).isThere (b.place dst) = false) :
    Post (fun _ => Says (Undoable start b id (moves ++ [(old, new)]) history))
      (fun _ => Says (Undoable start b id moves history)) ((env.move b src dst).run w) := by
  rw [RenameEnv.move, storage]
  refine post_call ?_ ?_ ?_
  · intro a w' h _
    obtain ⟨⟨_, t⟩, ht, heq⟩ := Option.map_eq_some_iff.mp h
    cases heq
    obtain ⟨t', ht', heq⟩ := Option.map_eq_some_iff.mp ht
    cases heq
    exact hw.concat ht' hfree hold hnew
  · exact fun _ _ => hw
  · exact fun hafter => absurd hafter hfault

/-- A question is not refused. -/
theorem fault_of_error {p e : Text} {w w' : RenameWorld S}
    (h : (env.pathExists b p).run w = (.error e, w')) : env.fault w.clock ≠ .none := by
  intro hnone
  simp only [pathExists, storage, call, hnone, Option.map_some] at h
  cases h

/-- The moves of the loop so far, after that of the main file. -/
def Listed (start : S → MovableTree) (b : StorageHandle S) (id : ℕ) (main : Text × Text)
    (history : List HistoryDest) (moved : List (Text × Text)) (w : RenameWorld S) : Prop :=
  (∀ a ∈ moved, NamesFile a.1) ∧ Says (Undoable start b id (main :: moved) history) w

/-- **A turn of the loop** lists its move, and raises only while there is none. -/
theorem listed_moveAuxEntry (hb : b.Regular) {entry : Text × Bool}
    (hentry : Recognized b dir entry) {w : RenameWorld S}
    (hturn : env.Accounted b oldPath newPath ⟨entry, moved, w⟩)
    (hw : Listed start b id main history moved w) :
    Post (Listed start b id main history) (fun _ => Says (Undoable start b id [main] history))
      ((env.moveAuxEntry b oldPath newPath moved entry).run w) := by
  rw [moveAuxEntry]
  split
  · exact hw
  · rename_i name hname
    split_ifs at hname with hdir
    have hentryDir := Bool.eq_false_iff.mpr hdir
    obtain ⟨hfile, -⟩ := hentry hentryDir
    have hproper := proper_auxTarget hname (plain_baseOf newPath)
    have hplain := not_mem_dirnameOf newPath
    have hjoin := hb.place_join (dirnameOf newPath) name hplain hproper
    have hsrc := hb.place_normPath entry.1 hfile.plain
    have hdst := hb.place_normPath _ (not_mem_join hplain hproper.2)
    -- the question raises only while there is no move
    have hasked : Post (fun taken => Says fun trees rows =>
          Undoable start b id (main :: moved) history trees rows ∧
            (trees b.store).isThere (b.place (Path.join (dirnameOf newPath) name)) = taken)
        (fun _ => Says (Undoable start b id [main] history))
        ((env.pathExists b (Path.join (dirnameOf newPath) name)).run w) := by
      refine Post.weaken (fails_pathExists w hw.2) (fun _ _ _ hv => hv) fun e v hrun hv => ?_
      have hnone := hturn.question name hentryDir hname (fault_of_error hrun)
      rw [show moved = [] from hnone] at hv
      exact hv
    refine post_bind hasked fun taken v hrun hv => ?_
    cases taken with
    | true => exact ⟨hw.1, hv.1⟩
    | false =>
      have hmoved : Post (fun _ => Says (Undoable start b id
            (main :: (moved ++ [(normPath entry.1, normPath (Path.join (dirnameOf newPath) name))]))
            history))
          (fun _ => Says (Undoable start b id (main :: moved) history))
          ((do
            env.mkdir b (dirnameOf newPath)
            env.move b entry.1 (Path.join (dirnameOf newPath) name) : Rename S Unit).run v) := by
        refine post_bind ((fails_mkdir onFiles_undoable hjoin v hv).weaken (fun _ _ _ hv' => hv')
          fun _ _ _ hv' => hv'.1) fun _ v' hrun' hv' => ?_
        exact post_move (hturn.move name v v' hentryDir hname hrun hrun') hsrc hdst hv'.1 hv'.2
      refine post_bind (post_attempt hmoved) fun r v' _ hr => ?_
      cases r with
      | error _ => exact ⟨hw.1, hr.2⟩
      | ok _ =>
        refine ⟨fun a ha => ?_, hr.2⟩
        rcases List.mem_append.mp ha with ha | ha
        · exact hw.1 a ha
        · rw [List.mem_singleton.mp ha]
          exact ⟨not_mem_normPath _, by simpa using hfile.proper⟩

/-- **The loop** lists its moves, and raises only while there is none. -/
theorem listed_loop (hb : b.Regular) {entries : List (Text × Bool)}
    (hentries : ∀ entry ∈ entries, Recognized b dir entry) {w : RenameWorld S}
    (hturns : ∀ turn ∈ env.auxTurns b oldPath newPath entries moved w,
      env.Accounted b oldPath newPath turn)
    (hw : Listed start b id main history moved w) :
    Post (Listed start b id main history) (fun _ => Says (Undoable start b id [main] history))
      ((entries.foldlM (env.moveAuxEntry b oldPath newPath) moved).run w) := by
  induction entries generalizing moved w with
  | nil => exact hw
  | cons entry entries ih =>
    have hturn := hturns _ List.mem_cons_self
    rw [List.foldlM_cons]
    refine post_bind (listed_moveAuxEntry hb (hentries entry List.mem_cons_self) hturn hw) ?_
    intro moved' w' hrun hw'
    refine ih (fun en hen => hentries en (List.mem_cons_of_mem _ hen)) (fun turn hmem => ?_) hw'
    refine hturns turn ?_
    rw [auxTurns, hrun]
    exact List.mem_cons_of_mem _ hmem

omit [DecidableEq S] in
theorem properIn_of_files {t t' : MovableTree} (h : ProperIn dir t) (hfiles : t'.files = t.files) :
    ProperIn dir t' := by
  intro n hn
  refine h n ?_
  rwa [FileTree.isFile, ← hfiles]

omit [DecidableEq S] in
/-- A file of the directory is moved to where nothing is. -/
theorem ProperIn.move {t t' : MovableTree} {from' to' d : List Text} {o m : Text}
    (h : ProperIn dir t) (hmove : t.move from' to' = some t') (hfree : t.isThere to' = false)
    (hfrom : from' = dir ++ [o]) (hto : to' = d ++ [m]) (hm : ProperName m) :
    ProperIn dir t' := by
  intro n hn
  rcases FileTree.isFile_or_below_of_move hmove hfree hn with hbefore | hbelow
  · exact h n hbefore
  · rcases List.prefix_concat_iff.mp hbelow with heq | habove
    · rw [hto] at heq
      rw [← List.singleton_inj.mp (List.append_inj_right' heq rfl)]
      exact hm
    · -- above what is moved something is
      have hthere := FileTree.isThere_of_prefix (FileTree.isThere_of_move hmove)
        (habove.trans (hfrom ▸ List.prefix_append dir [o]))
      rw [hfree] at hthere
      cases hthere

theorem listed_moveAux (hb : b.Regular) (hdir : b.place (dirnameOf oldPath) = dir)
    {w : RenameWorld S} (hproper : ProperIn dir (w.trees b.store))
    (hturns : ∀ entries w', (env.listDir b (dirnameOf oldPath)).run w = (.ok entries, w') →
      ∀ turn ∈ env.auxTurns b oldPath newPath entries [] w',
        env.Accounted b oldPath newPath turn)
    (hw : Says (Undoable start b id [main] history) w) :
    Post (Listed start b id main history) (fun _ => Says (Undoable start b id [main] history))
      ((env.moveAux b oldPath newPath).run w) := by
  have hlist : Triple
      (Says fun trees rows => Undoable start b id [main] history trees rows ∧
        ProperIn dir (trees b.store))
      (env.listDir b (dirnameOf oldPath))
      (fun entries => Says fun trees rows => Undoable start b id [main] history trees rows ∧
        ∀ en ∈ entries, Recognized b dir en)
      fun _ => Says (Undoable start b id [main] history) := by
    refine (fails_storage (B := fun entries trees rows =>
      Undoable start b id [main] history trees rows ∧ ∀ en ∈ entries, Recognized b dir en)
      ?_).weaken (fun _ hw => hw) (fun _ _ hw => hw) ?_
    · intro k trees rows entries t hA h
      obtain ⟨l, hl, heq⟩ := Option.map_eq_some_iff.mp h
      cases heq
      rw [Function.update_eq_self]
      exact ⟨hA.1, recognized_of_list env b hb (not_mem_dirnameOf oldPath) hdir hA.2 hl⟩
    · rintro _ w (hw | ⟨_, hw⟩)
      · exact hw.1
      · exact hw.1
  refine post_bind (post_attempt (hlist w ⟨hw, hproper⟩)) fun r v _ hr => ?_
  cases r with
  | error _ => exact ⟨by simp, hr.2⟩
  | ok entries =>
    exact listed_loop hb hr.2.2 (hturns entries v hr.1) ⟨by simp, hr.2.1⟩

/-- The files in the directory of the main file have proper names, whatever is said besides. -/
def Proper (b : StorageHandle S) (oldPath : Text) (A : Assertion S) : Assertion S :=
  fun trees rows => A trees rows ∧ ProperIn (b.place (dirnameOf oldPath)) (trees b.store)

omit [DecidableEq S] in
theorem onFiles_proper {A : Assertion S} (hA : OnFiles A) : OnFiles (Proper b oldPath A) :=
  fun trees trees' rows hfiles h =>
    ⟨hA trees trees' rows hfiles h.1, properIn_of_files h.2 (hfiles b.store)⟩

/-- Nothing has been moved, and nothing is at the target. -/
def Unmoved (start : S → MovableTree) (b : StorageHandle S) (id : ℕ) (oldPath newPath : Text)
    (history : List HistoryDest) : Assertion S :=
  fun trees rows => Proper b oldPath (Undoable start b id [] history) trees rows ∧
    (trees b.store).isThere (b.place newPath) = false

omit [DecidableEq S] in
theorem undoable_of_unmoved {w : RenameWorld S}
    (hw : Says (Unmoved start b id oldPath newPath history) w) :
    Says (Undoable start b id [(oldPath, newPath)] history) w := hw.1.1.concat_of_free hw.2

omit [DecidableEq S] in
theorem unmoved_updateItem {f : RenameItem → RenameItem} (hf : ∀ x, (f x).status ≠ .failed) :
    Keeps (Says (Unmoved start b id oldPath newPath history)) (env.updateItem id f) := by
  refine fails_keeps_repo fun trees rows a rows' hA h => ?_
  cases h
  exact ⟨⟨hA.1.1.of_rows (unfailed_update hf) hA.1.1.history, hA.1.2⟩, hA.2⟩

theorem unmoved_move (hb : b.Regular) (hold : NamesFile oldPath) (hnew : NamesFile newPath) :
    Triple (Says (Unmoved start b id oldPath newPath history)) (env.move b oldPath newPath)
      (fun _ => Says (Proper b oldPath (Undoable start b id [(oldPath, newPath)] history)))
      fun _ => Says (Undoable start b id [(oldPath, newPath)] history) := by
  have hplaceOld := hb.place_eq oldPath hold.plain hold.proper
  have hplaceNew := hb.place_eq newPath hnew.plain hnew.proper
  refine (fails_storage (B := fun _ =>
    Proper b oldPath (Undoable start b id [(oldPath, newPath)] history)) ?_).weaken
    (fun _ hw => hw) (fun _ _ hw => hw) ?_
  · intro _ trees rows a t hA h
    obtain ⟨t', ht, heq⟩ := Option.map_eq_some_iff.mp h
    cases heq
    refine ⟨hA.1.1.concat ht hA.2 rfl rfl, ?_⟩
    rw [Function.update_self]
    exact hA.1.2.move ht hA.2 hplaceOld hplaceNew hnew.proper
  · rintro _ w (hw | ⟨_, hw⟩)
    · exact undoable_of_unmoved hw
    · exact hw.1

/-- **The files of an item are moved**, and an exception leaves no more than the handler knows. -/
theorem listed_placeItem {item : RenameItem} (hb : b.Regular) (hold : NamesFile oldPath)
    (hnew : NamesFile newPath) {w : RenameWorld S}
    (haccount : env.Accountable b item oldPath newPath w)
    (hw : Says (Unmoved start b item.id oldPath newPath history) w) :
    Post (fun r v => ∃ aux, r = some aux ∧
        Listed start b item.id (oldPath, newPath) history aux v)
      (fun _ => Says (Undoable start b item.id [(oldPath, newPath)] history))
      ((env.placeItem b item oldPath newPath).run w) := by
  have hplace := hb.place_eq newPath hnew.plain hnew.proper
  refine post_bind ((fails_pathExists w hw).weaken (fun _ _ _ hv => hv)
    fun _ _ _ hv => undoable_of_unmoved hv) fun taken w₁ h₁ hw₁ => ?_
  obtain rfl : false = taken := hw₁.1.2.symm.trans hw₁.2
  refine post_bind ((unmoved_updateItem (fun _ => by simp) w₁ hw₁.1).weaken
    (fun _ _ _ hv => hv) fun _ _ _ hv => undoable_of_unmoved hv) fun _ w₂ h₂ hw₂ => ?_
  refine post_bind ((fails_mkdir (onFiles_proper onFiles_undoable) hplace w₂ hw₂).weaken
    (fun _ _ _ hv => hv) fun _ _ _ hv => undoable_of_unmoved hv) fun _ w₃ h₃ hw₃ => ?_
  refine post_bind (unmoved_move hb hold hnew w₃ hw₃) fun _ w₄ h₄ hw₄ => ?_
  refine post_bind (listed_moveAux hb rfl hw₄.2 (fun entries v hrun => ?_) hw₄.1)
    fun aux w₅ _ hw₅ => ⟨aux, rfl, hw₅⟩
  refine haccount.turns entries v ?_
  rw [beginAux, run_bind_of_ok h₁, run_bind_of_ok h₂, run_bind_of_ok h₃, run_bind_of_ok h₄, hrun]

end Auxiliary

/-! ## One item -/

section Item

variable {env : RenameEnv S} {b : StorageHandle S} {start : S → MovableTree} {item : RenameItem}
  {moves : List (Text × Text)} {history history' : List HistoryDest} {oldPath newPath : Text}

theorem undoable_stat (p : Text) :
    Keeps (Says (Undoable start b item.id moves history)) (env.stat b p) :=
  fails_question.weaken (fun _ hw => hw) (fun _ _ hw => hw.1) fun _ _ hw => hw

/-- **What an item writes down** leaves the moves to be taken back; an exception of its first call
comes before the history is told. -/
theorem undoable_recordItem (aux : List (Text × Text)) {w : RenameWorld S}
    (hforth : redirected (dirnameOf oldPath, basenameOf oldPath)
      (dirnameOf newPath, basenameOf newPath) (historyCategory item true) history = history')
    (hw : Says (Undoable start b item.id moves history) w) :
    Post (fun _ => Says fun _ rows => Unfailed item.id rows)
      (fun _ v => Says (Undoable start b item.id moves history) v ∨
        env.fault w.clock ≠ .before ∧ Says (Undoable start b item.id moves history') v)
      ((env.recordItem b item oldPath newPath aux).run w) := by
  have htold : Post
      (fun _ v => env.fault w.clock ≠ .before ∧ Says (Undoable start b item.id moves history') v)
      (fun _ v => Says (Undoable start b item.id moves history) v ∨
        env.fault w.clock ≠ .before ∧ Says (Undoable start b item.id moves history') v)
      ((env.updateHistoryDest (dirnameOf oldPath) (basenameOf oldPath) (dirnameOf newPath)
        (basenameOf newPath) (historyCategory item true)).run w) := by
    rw [updateHistoryDest, repo]
    refine post_call ?_ ?_ ?_
    · intro a w' h hfault
      cases h
      refine ⟨hfault, hw.of_rows hw.unfailed ?_⟩
      rw [← hforth, ← hw.history]
      rfl
    · exact fun _ _ => .inl hw
    · exact fun _ _ _ _ hv => .inr hv
  have hmetadata : Keeps (Says (Undoable start b item.id moves history'))
      (env.upsertItemMetadata b item newPath) := by
    refine keeps_bind (undoable_stat newPath) fun _ => fails_keeps_repo ?_
    intro trees rows a rows' hA h
    cases h
    exact hA.of_rows hA.unfailed hA.history
  have hdone : Keeps (Says (Undoable start b item.id moves history'))
      (env.updateItem item.id fun x =>
        { x with status := .done, newPath := newPath, auxMoves := aux }) := by
    refine fails_keeps_repo fun trees rows a rows' hA h => ?_
    cases h
    exact hA.of_rows (unfailed_update fun _ => by simp) hA.history
  refine post_bind htold fun _ v _ hv => ?_
  have hstat : Keeps (Says (Undoable start b item.id moves history')) (env.stat b newPath) :=
    undoable_stat newPath
  have hpath : ∀ stat : Option (ℤ × ℚ), Keeps (Says (Undoable start b item.id moves history'))
      (env.updateMetadataPath (normalizeBackend item.backendId) oldPath newPath
        (stat.map Prod.fst) (stat.map Prod.snd)) := fun stat => undoable_updateMetadata _ _ _ _ _
  have hrest := keeps_bind hstat fun stat =>
    keeps_bind (hpath stat) fun _ => keeps_bind hmetadata fun _ => hdone
  exact Post.weaken (hrest v hv.2) (fun _ _ _ hv' => hv'.unfailed)
    fun _ _ _ hv' => .inr ⟨hv.1, hv'⟩

/-- **An item under its locks** is done, or has failed and left no trace. -/
theorem traceless_renameItem (hb : b.Regular) (hold : NamesFile oldPath) (hnew : NamesFile newPath)
    {w : RenameWorld S} (haccount : env.Accountable b item oldPath newPath w)
    (hstale : ∀ x ∈ history, x.key ≠ (dirnameOf newPath, basenameOf newPath))
    (hcategory : ∀ x ∈ history, x.key = (dirnameOf oldPath, basenameOf oldPath) →
      item.snapshot.updateCategory → x.category = item.snapshot.category)
    (hw : Says (Unmoved start b item.id oldPath newPath history) w) :
    Post (fun _ => Says (Traceless start item.id history))
      (fun _ => Says (Traceless start item.id history))
      ((env.renameItem b item oldPath newPath).run w) := by
  have hself : redirected (dirnameOf newPath, basenameOf newPath)
      (dirnameOf oldPath, basenameOf oldPath) (historyCategory item false) history = history :=
    redirected_eq_self hstale
  have hback : redirected (dirnameOf newPath, basenameOf newPath)
      (dirnameOf oldPath, basenameOf oldPath) (historyCategory item false)
      (redirected (dirnameOf oldPath, basenameOf oldPath)
        (dirnameOf newPath, basenameOf newPath) (historyCategory item true) history) = history := by
    refine redirected_redirected hstale fun x hx hkey => ?_
    by_cases hupdate : item.snapshot.updateCategory = true
    · simp [historyCategory, hupdate, hcategory x hx hkey hupdate]
    · simp [historyCategory, hupdate]
  refine post_bind (post_attempt (listed_placeItem hb hold hnew haccount hw)) fun r v _ hr => ?_
  cases r with
  | error e => exact traceless_recoverItem hb hold (by simp) e hself v ⟨hr.2, .inl rfl⟩
  | ok placed =>
    obtain ⟨aux, rfl, hlisted⟩ := hr.2
    refine post_handle ((undoable_recordItem aux rfl hlisted.2).weaken (fun _ _ _ hv => .inl hv)
      fun _ _ _ hv => hv) fun e v' hrun hv' => ?_
    rcases hv' with hv' | ⟨hfault, hv'⟩
    · exact traceless_recoverItem hb hold hlisted.1 e hself v' ⟨hv', .inl rfl⟩
    · exact traceless_recoverItem hb hold hlisted.1 e hback v'
        ⟨hv', .inr (haccount.history aux e v v' hr.1 hrun hfault)⟩

/-- The files and the history are those at the start. -/
def Unchanged (start : S → MovableTree) (history : List HistoryDest) : Assertion S :=
  fun trees rows => (∀ s, (trees s).files = (start s).files) ∧ rows.history = history

omit [DecidableEq S] in
theorem traceless_of_unchanged {w : RenameWorld S} (hw : Says (Unchanged start history) w) :
    Says (Traceless start item.id history) w := .inr hw

omit [DecidableEq S] in
/-- An item that is refused is marked, and nothing else. -/
theorem unchanged_fail (id : ℕ) (reason : Text) :
    Keeps (Says (Unchanged start history)) (env.fail id reason) := by
  rw [fail, updateItem]
  refine fails_keeps_repo fun trees rows a rows' hA h => ?_
  cases h
  exact hA

/-- A question, from one state. -/
theorem post_question {g : ℕ → MovableTree → α} (w : RenameWorld S) :
    Post (fun a v => v = { w with clock := w.clock + 1, passed := w.passed ++ [w.trees] } ∧
        a = g w.clock (w.trees b.store))
      (fun _ => Says (Unchanged w.trees w.rows.history))
      ((env.storage b fun n t => some (g n t, t)).run w) := by
  rw [storage]
  refine post_call ?_ ?_ ?_
  · intro a w' h _
    cases h
    refine ⟨?_, rfl⟩
    simp only [Function.update_eq_self]
  · exact fun _ _ => ⟨fun _ => rfl, rfl⟩
  · rintro _ _ _ _ ⟨rfl, -⟩
    exact ⟨fun _ => rfl, rfl⟩

omit [DecidableEq S] in
theorem post_acquireAll (keys : List Text) (w : RenameWorld S) :
    Post (fun free v => Says (Unchanged w.trees w.rows.history) v ∧
        (free = true → v = { w with clock := w.clock + keys.length }))
      (fun _ => Says (Unchanged w.trees w.rows.history)) ((env.acquireAll keys).run w) := by
  induction keys generalizing w with
  | nil => exact ⟨⟨fun _ => rfl, rfl⟩, fun _ => rfl⟩
  | cons key keys ih =>
    have hcall : Post (fun _ v => v = { w with clock := w.clock + 1 })
        (fun _ => Says (Unchanged w.trees w.rows.history)) ((env.acquire key).run w) := by
      rw [acquire, ask]
      refine post_call ?_ ?_ ?_
      · intro a w' h _
        cases h
        rfl
      · exact fun _ _ => ⟨fun _ => rfl, rfl⟩
      · rintro _ _ _ _ rfl
        exact ⟨fun _ => rfl, rfl⟩
    refine post_bind hcall ?_
    rintro free _ - rfl
    cases free with
    | false => exact ⟨⟨fun _ => rfl, rfl⟩, fun h => absurd h (by decide)⟩
    | true =>
      refine (ih _).weaken (fun free v _ hv => ⟨hv.1, fun hfree => ?_⟩) fun _ _ _ hv => hv
      rw [hv.2 hfree, List.length_cons, Nat.add_right_comm, Nat.add_assoc]

omit [DecidableEq S] in
/-- An item is refused in a state in which nothing has changed. -/
theorem post_fail {w v : RenameWorld S} {history : List HistoryDest} (id : ℕ) (reason : Text)
    (hv : Says (Unchanged w.trees history) v) :
    Post (fun _ => Says (Traceless w.trees item.id history))
      (fun _ => Says (Traceless w.trees item.id history)) ((env.fail id reason).run v) :=
  (unchanged_fail id reason v hv).weaken (fun _ _ _ h => traceless_of_unchanged h)
    fun _ _ _ h => traceless_of_unchanged h

/-- The state in which an item holds its locks: three questions lie behind it, and its locks. -/
def underLocks (item : RenameItem) (w : RenameWorld S) : RenameWorld S :=
  { w with
    clock := w.clock + 3 + (lockKeys item (normPath item.oldPath) (normPath item.newPath)).length
    passed := w.passed ++ [w.trees, w.trees] }

end Item

end RenameEnv

/-- What an item that fails can make good again: no row of the history has its new path, those with
its old path have the category that it goes back to, and no exception hides what was done. -/
structure FailsCleanly (env : RenameEnv S) (item : RenameItem) (w : RenameWorld S) : Prop where
  stale : ∀ x ∈ w.rows.history, x.key ≠ item.historyMove.2
  category : ∀ x ∈ w.rows.history, x.key = item.historyMove.1 →
    item.snapshot.updateCategory → x.category = item.snapshot.category
  accountable : ∀ b, env.resolve w.clock (normalizeBackend item.backendId) = some b →
    env.Accountable b item (normPath item.oldPath) (normPath item.newPath)
      (RenameEnv.underLocks item w)

namespace RenameEnv

section Execution

variable {env : RenameEnv S} {b : StorageHandle S} {x : FileItem} {w : RenameWorld S}

theorem traceless_checkItem (hb : b.Regular) (h : FailsCleanly env x.item w)
    (hresolve : env.resolve w.clock (normalizeBackend x.item.backendId) = some b)
    (hw : Unfailed x.item.id w.rows) :
    Post (fun _ => Says (Traceless w.trees x.item.id w.rows.history))
      (fun _ => Says (Traceless w.trees x.item.id w.rows.history))
      ((env.checkItem b x.item (normPath x.item.oldPath) (normPath x.item.newPath)).run
        { w with clock := w.clock + 1 }) := by
  have hsame : ∀ n l, Says (Unchanged w.trees w.rows.history)
      { w with clock := n, passed := l } := fun _ _ => ⟨fun _ => rfl, rfl⟩
  have hraised : ∀ v, Says (Unchanged w.trees w.rows.history) v →
      Says (Traceless w.trees x.item.id w.rows.history) v := fun _ hv => .inr hv
  refine post_bind ((post_question { w with clock := w.clock + 1 }).weaken (fun _ _ _ hv => hv)
    fun _ _ _ hv => hraised _ hv) ?_
  rintro stat _ - ⟨rfl, -⟩
  cases stat with
  | none => exact post_fail _ _ (hsame _ _)
  | some stat =>
    by_cases hchanged : FileChanged x.item stat.1 stat.2
    · simp only [if_pos hchanged]
      exact post_fail _ _ (hsame _ _)
    · simp only [if_neg hchanged]
      refine post_bind ((post_question _).weaken (fun _ _ _ hv => hv)
        fun _ _ _ hv => hraised _ hv) ?_
      rintro taken _ - ⟨rfl, htaken⟩
      cases taken with
      | true => exact post_fail _ _ (hsame _ _)
      | false =>
        refine post_bind ((post_acquireAll _ _).weaken (fun _ _ _ hv => hv)
          fun _ _ _ hv => hraised _ hv) ?_
        rintro free v - ⟨hv, hfree⟩
        cases free with
        | false => exact post_fail _ _ hv
        | true =>
          have hstate : v = underLocks x.item w := by
            rw [hfree rfl, underLocks]
            simp only [List.append_assoc, List.cons_append, List.nil_append]
          have haccount := h.accountable b hresolve
          rw [hstate]
          refine traceless_renameItem hb ⟨not_mem_normPath _, by simpa using x.old⟩
            ⟨not_mem_normPath _, by simpa using x.new⟩ haccount ?_ ?_
            ⟨⟨⟨rfl, fun _ _ => rfl, hw, rfl⟩, haccount.proper⟩, htaken.symm⟩
          · rw [dirnameOf_normPath, basenameOf_normPath]
            exact h.stale
          · rw [dirnameOf_normPath, basenameOf_normPath]
            exact h.category

/-- **An execution** ends with the item not failed, or with the files and the history as before. -/
theorem traceless_executeItem (henv : ∀ n id b, env.resolve n id = some b → b.Regular)
    (h : FailsCleanly env x.item w) (hw : Unfailed x.item.id w.rows) :
    Says (Traceless w.trees x.item.id w.rows.history) ((env.executeItem x.item).run w).2 := by
  have hresolved : Post
      (fun backend v => v = { w with clock := w.clock + 1 } ∧
        backend = env.resolve w.clock (normalizeBackend x.item.backendId))
      (fun _ => Says (Traceless w.trees x.item.id w.rows.history))
      ((env.resolveBackend x.item.backendId).run w) := by
    rw [resolveBackend, ask]
    refine post_call ?_ ?_ ?_
    · intro a w' hcall _
      cases hcall
      exact ⟨rfl, rfl⟩
    · exact fun _ _ => .inl hw
    · rintro _ _ _ _ ⟨rfl, -⟩
      exact .inl hw
  have hitem : Post (fun _ => Says (Traceless w.trees x.item.id w.rows.history))
      (fun _ => Says (Traceless w.trees x.item.id w.rows.history))
      ((env.executeItem x.item).run w) := by
    refine post_bind hresolved ?_
    rintro backend _ - ⟨rfl, hbackend⟩
    have hsame : Says (Unchanged w.trees w.rows.history) { w with clock := w.clock + 1 } :=
      ⟨fun _ => rfl, rfl⟩
    cases backend with
    | none => exact post_fail _ _ hsame
    | some b =>
      dsimp only
      split_ifs
      · exact post_fail _ _ hsame
      · exact post_fail _ _ hsame
      · exact traceless_checkItem (henv _ _ _ hbackend.symm) h hbackend.symm hw
  exact hitem.final

end Execution

end RenameEnv

/-! ## Restored on failure -/

/-- The place is that of the main file, or of a file beside it that passes the tests of the item. -/
def IsOwn (b : StorageHandle S) (item : RenameItem) (p : List Text) : Prop :=
  p = b.place (normPath item.oldPath) ∨
    ∃ path, p = b.place (dirnameOf item.oldPath) ++ [basenameOf path] ∧
      (auxTarget (baseOf item.oldPath) (baseOf item.newPath) path).isSome

/-- The rows of the history that tell of the main file. -/
def historyOf (item : RenameItem) (history : List HistoryDest) : List HistoryDest :=
  history.filter fun x => x.key = item.historyMove.1

/-- If the item comes out of its execution as failed, its files are where they were, and so is
what the history tells of it. -/
def RestoredOnFailure (env : RenameEnv S) (item : RenameItem) (w : RenameWorld S) : Prop :=
  let w' := ((env.executeItem item).run w).2
  Unfailed item.id w.rows → ¬Unfailed item.id w'.rows →
    (∀ b, env.resolve w.clock (normalizeBackend item.backendId) = some b → ∀ p, IsOwn b item p →
      (w'.trees b.store).read p = (w.trees b.store).read p) ∧
    historyOf item w'.rows.history = historyOf item w.rows.history

/-- The item that renames `A.mkv`. -/
def fileA : FileItem where
  item := renameA
  old := by decide +kernel
  new := by decide +kernel

/-- Before the item is executed. -/
def beforeA (names : List Text) (h : (names.map fun n => [of "lib", n]).Nodup) :
    RenameWorld Unit where
  trees _ := { files := names.map fun n => ([of "lib", n], { content := n })
               nodup := by simpa [List.map_map, Function.comp_def] using h }
  rows := oneRename (of "A.mkv")

/-- One call raises. -/
def raisingAt (n : ℕ) (fault : CallFault) : RenameEnv Unit :=
  { calmEnv with fault := fun k => if k = n then fault else .none }

theorem regular_raisingAt {n k : ℕ} {fault : CallFault} {id : Text} {b : StorageHandle Unit}
    (h : (raisingAt n fault).resolve k id = some b) : b = posixHandle () ∧ b.Regular := by
  simp only [raisingAt, calmEnv] at h
  split_ifs at h
  cases h
  exact ⟨rfl, regular_posixHandle ()⟩

/-- The move of the main file raises after it has taken effect. -/
theorem failsCleanly_lateMove :
    FailsCleanly (raisingAt 7 .after) renameA (beforeA [of "A.mkv"] (by decide)) := by
  refine ⟨by decide +kernel, fun _ _ _ hupdate => absurd hupdate (by decide), fun b hb => ?_⟩
  obtain ⟨rfl, -⟩ := regular_raisingAt hb
  have hbegin : ((((raisingAt 7 .after).beginAux (posixHandle ()) renameA (normPath renameA.oldPath)
      (normPath renameA.newPath)).run (RenameEnv.underLocks renameA
        (beforeA [of "A.mkv"] (by decide)))).1).isOk = false := by decide +kernel
  have hplace : ((((raisingAt 7 .after).placeItem (posixHandle ()) renameA
      (normPath renameA.oldPath) (normPath renameA.newPath)).run (RenameEnv.underLocks renameA
        (beforeA [of "A.mkv"] (by decide)))).1).isOk = false := by decide +kernel
  have hdir : (posixHandle ()).place (dirnameOf (normPath renameA.oldPath)) = [of "lib"] := by
    decide +kernel
  refine ⟨fun n hn => ?_, fun entries w' hrun => ?_, fun aux e w' w'' hrun => ?_⟩
  · rw [hdir] at hn
    have hname : n = of "A.mkv" := by
      simpa [RenameEnv.underLocks, beforeA, FileTree.isFile] using hn
    rw [hname]
    decide +kernel
  · rw [hrun] at hbegin
    cases hbegin
  · rw [hrun] at hplace
    cases hplace

end WolfNas
