import WolfNas.Lib.Hop
import WolfNas.Rename.Steady

/-!
# The items of a job

Each item of a job is done, or its row says that it is not, and nothing later in the job says
otherwise.

## Main definitions

* `Lost` — the row of an item does not say that it is done.

## Main results

* `RenameEnv.lost_executeItem`, `RenameEnv.lost_runItems`, `RenameEnv.lost_finish` — an item stays
  lost while others are handled.
-/

namespace WolfNas

open Program

variable {S : Type} [DecidableEq S] {α : Type}

/-! ## Items that are not done -/

/-- The row of an item does not say that it is done. -/
def Lost (id : ℕ) : Assertion S := fun _ rows => ∀ y ∈ rows.items, y.id = id → y.status ≠ .done

namespace RenameEnv

variable {env : RenameEnv S} (henv : env.Steady) {id : ℕ}

include henv

/-- An item stays lost. -/
theorem lost_storage (b : StorageHandle S) (f : ℕ → MovableTree → Option (α × MovableTree)) :
    Keeps (Says (Lost id)) (env.storage b f) := says_storage henv fun _ _ _ _ _ h _ => h

omit [DecidableEq S] in
theorem lost_ask (f : ℕ → α) : Keeps (Says (Lost id)) (env.ask f) :=
  (says_ask henv).weaken (fun _ h => h) (fun _ _ h => h.2) fun _ _ h => h

omit [DecidableEq S] in
theorem lost_repo {f : RenameRows → Option (α × RenameRows)}
    (hf : ∀ rows a rows', f rows = some (a, rows') → rows'.items = rows.items) :
    Keeps (Says (Lost id)) (env.repo f) := by
  refine says_repo henv ?_
  intro trees rows a rows' h hrows y hy
  rw [hf rows a rows' hrows] at hy
  exact h y hy

omit [DecidableEq S] in
theorem lost_updateItem (id' : ℕ) {f : RenameItem → RenameItem}
    (hf : ∀ y, (f y).id = y.id ∧ (id' = id → (f y).status = .done → y.status = .done)) :
    Keeps (Says (Lost id)) (env.updateItem id' f) := by
  refine says_repo henv ?_
  intro trees rows a rows' h hrows y hy hid
  cases hrows
  obtain ⟨z, hz, rfl⟩ := List.mem_map.mp hy
  by_cases hupdated : z.id = id'
  · rw [if_pos hupdated] at hid ⊢
    rw [(hf z).1] at hid
    exact fun hdone => h z hz hid ((hf z).2 (hupdated.symm.trans hid) hdone)
  · rw [if_neg hupdated] at hid ⊢
    exact h z hz hid

omit [DecidableEq S] in
theorem lost_updateHistory (oldDir oldName newDir newName : Text) (category : Option Text) :
    Keeps (Says (Lost id)) (env.updateHistoryDest oldDir oldName newDir newName category) := by
  refine lost_repo henv fun rows a rows' h => ?_
  cases h
  rfl

omit [DecidableEq S] in
theorem lost_updateMetadata (backendId oldPath newPath : Text) (size : Option ℤ)
    (mtime : Option ℚ) :
    Keeps (Says (Lost id)) (env.updateMetadataPath backendId oldPath newPath size mtime) := by
  refine lost_repo henv fun rows a rows' h => ?_
  dsimp only at h
  split_ifs at h
  cases h
  rfl

omit [DecidableEq S] in
theorem lost_acquireAll (keys : List Text) : Keeps (Says (Lost id)) (env.acquireAll keys) := by
  induction keys with
  | nil => exact keeps_pure true
  | cons key keys ih =>
    refine keeps_bind (lost_ask henv _) fun free => ?_
    split_ifs
    · exact ih
    · exact keeps_pure false

section Item

variable (b : StorageHandle S) (x : RenameItem) (hx : x.id ≠ id) (oldPath newPath : Text)

theorem lost_move (dir src dst : Text) :
    Keeps (Says (Lost id)) (do env.mkdir b dir; env.move b src dst) :=
  keeps_bind (lost_storage henv b _) fun _ => lost_storage henv b _

theorem lost_moveAux : Keeps (Says (Lost id)) (env.moveAux b oldPath newPath) := by
  refine keeps_bind (keeps_attempt (lost_storage henv b _)) fun entries => ?_
  cases entries with
  | error _ => exact keeps_pure _
  | ok entries =>
    refine keeps_foldlM (fun moved entry => ?_) [] entries
    rw [moveAuxEntry]
    split
    · exact keeps_pure moved
    · refine keeps_bind (lost_storage henv b _) fun taken => ?_
      split_ifs
      · exact keeps_pure moved
      · refine keeps_bind (keeps_attempt (lost_move henv b _ _ _)) fun r => ?_
        cases r with
        | ok _ => exact keeps_pure _
        | error _ => exact keeps_pure _

theorem lost_moveBack (new old : Text) : Keeps (Says (Lost id)) (env.moveBack b new old) := by
  refine keeps_bind (keeps_attempt (lost_move henv b _ _ _)) fun r => ?_
  cases r with
  | ok _ => exact keeps_pure _
  | error _ => exact keeps_pure _

theorem lost_rollbackPaths (aux : List (Text × Text)) :
    Keeps (Says (Lost id)) (env.rollbackPaths b oldPath newPath aux) := by
  refine keeps_bind (keeps_foldlM (fun ok entry => ?_) true _) fun ok => ?_
  · refine keeps_bind (lost_storage henv b _) fun newExists => ?_
    refine keeps_bind (lost_storage henv b _) fun oldExists => ?_
    split_ifs
    · exact keeps_pure _
    · exact keeps_bind (lost_moveBack henv b _ _) fun _ => keeps_pure _
    · exact keeps_pure _
  · refine keeps_bind (lost_storage henv b _) fun newExists => ?_
    refine keeps_bind (lost_storage henv b _) fun oldExists => ?_
    split_ifs
    · exact keeps_pure _
    · exact keeps_bind (lost_moveBack henv b _ _) fun _ => keeps_pure _
    · exact keeps_pure _

include hx

omit [DecidableEq S] in
/-- The rows of other items do not matter. -/
theorem lost_update (f : RenameItem → RenameItem) (hf : ∀ y, (f y).id = y.id) :
    Keeps (Says (Lost id)) (env.updateItem x.id f) :=
  lost_updateItem henv x.id fun y => ⟨hf y, fun h => absurd h hx⟩

omit [DecidableEq S] in
theorem lost_fail (reason : Text) : Keeps (Says (Lost id)) (env.fail x.id reason) :=
  lost_update henv x hx _ fun _ => rfl

theorem lost_placeItem : Keeps (Says (Lost id)) (env.placeItem b x oldPath newPath) := by
  refine keeps_bind (lost_storage henv b _) fun taken => ?_
  split_ifs
  · exact keeps_bind (lost_fail henv x hx _) fun _ => keeps_pure _
  · refine keeps_bind (lost_update henv x hx _ fun _ => rfl) fun _ => ?_
    refine keeps_bind (lost_storage henv b _) fun _ => ?_
    refine keeps_bind (lost_storage henv b _) fun _ => ?_
    exact keeps_bind (lost_moveAux henv b _ _) fun _ => keeps_pure _

theorem lost_recordItem (aux : List (Text × Text)) :
    Keeps (Says (Lost id)) (env.recordItem b x oldPath newPath aux) := by
  refine keeps_bind (lost_updateHistory henv _ _ _ _ _) fun _ => ?_
  refine keeps_bind (lost_storage henv b _) fun stat => ?_
  refine keeps_bind (lost_updateMetadata henv _ _ _ _ _) fun _ => ?_
  refine keeps_bind ?_ fun _ => lost_update henv x hx _ fun _ => rfl
  exact keeps_bind (lost_storage henv b _) fun _ => lost_repo henv fun rows a rows' h => by
    cases h
    rfl

theorem lost_recoverItem (aux : List (Text × Text)) (e : Text) :
    Keeps (Says (Lost id)) (env.recoverItem b x oldPath newPath aux e) := by
  refine keeps_bind (keeps_attempt (lost_updateHistory henv _ _ _ _ _)) fun _ => ?_
  refine keeps_bind (keeps_attempt (lost_updateMetadata henv _ _ _ _ _)) fun _ => ?_
  refine keeps_bind (lost_rollbackPaths henv b _ _ aux) fun ok => ?_
  exact lost_update henv x hx _ fun _ => rfl

theorem lost_renameItem : Keeps (Says (Lost id)) (env.renameItem b x oldPath newPath) := by
  refine keeps_bind (keeps_attempt (lost_placeItem henv b x hx _ _)) fun r => ?_
  cases r with
  | error e => exact lost_recoverItem henv b x hx _ _ [] e
  | ok placed =>
    cases placed with
    | none => exact keeps_pure ()
    | some aux =>
      exact keeps_handle (lost_recordItem henv b x hx _ _ aux)
        (lost_recoverItem henv b x hx _ _ aux)

theorem lost_checkItem : Keeps (Says (Lost id)) (env.checkItem b x oldPath newPath) := by
  refine keeps_bind (lost_storage henv b _) fun stat => ?_
  cases stat with
  | none => exact lost_fail henv x hx _
  | some st =>
    dsimp only
    split_ifs
    · exact lost_fail henv x hx _
    · refine keeps_bind (lost_storage henv b _) fun taken => ?_
      split_ifs
      · exact lost_fail henv x hx _
      · refine keeps_bind (lost_acquireAll henv _) fun free => ?_
        split_ifs
        · exact lost_renameItem henv b x hx _ _
        · exact lost_fail henv x hx _

omit b in
/-- Another item is executed. -/
theorem lost_executeItem : Keeps (Says (Lost id)) (env.executeItem x) := by
  refine keeps_bind (lost_ask henv _) fun backend => ?_
  cases backend with
  | none => exact lost_fail henv x hx _
  | some b =>
    dsimp only
    split_ifs
    · exact lost_fail henv x hx _
    · exact lost_fail henv x hx _
    · exact lost_checkItem henv b x hx _ _

end Item

/-! ## The rest of a job -/

omit [DecidableEq S] henv in
theorem lost_maybeCancelled (jobId : ℕ) : Keeps (Says (Lost id)) (env.maybeCancelled jobId) := by
  intro w hw
  have hitems : (cancelJob jobId w.rows).2.items = w.rows.items := by
    rw [cancelJob]
    split <;> rfl
  change ∀ y ∈ (if env.cancels w.clock then (cancelJob jobId w.rows).2 else w.rows).items, _
  split_ifs
  · rw [hitems]
    exact hw
  · exact hw

theorem lost_runItems (jobId : ℕ) (items : List RenameItem) (hitems : ∀ x ∈ items, x.id ≠ id) :
    Keeps (Says (Lost id)) (env.runItems jobId items) := by
  induction items with
  | nil => exact keeps_pure false
  | cons x items ih =>
    refine keeps_bind (lost_maybeCancelled jobId) fun _ => ?_
    refine keeps_bind (lost_repo henv fun rows a rows' h => ?_) fun status => ?_
    · cases h
      rfl
    split_ifs
    · exact keeps_pure false
    · refine keeps_bind (lost_executeItem henv x (hitems x List.mem_cons_self)) fun _ => ?_
      refine keeps_bind (lost_ask henv _) fun kept => ?_
      split_ifs
      · exact ih fun x hx => hitems x (List.mem_cons_of_mem _ hx)
      · exact keeps_pure true

theorem lost_moveAssets (b : StorageHandle S) (first : RenameItem) (oldDir newDir : Text)
    (entries : List (Text × Bool)) :
    Keeps (Says (Lost id)) (env.moveAssets b first oldDir newDir entries) := by
  refine keeps_bind (keeps_foldlM (fun moved entry => ?_) [] entries) fun moved => ?_
  · rw [moveAsset]
    split_ifs
    · exact keeps_pure moved
    · refine keeps_bind (lost_storage henv b _) fun taken => ?_
      split_ifs
      · exact keeps_pure moved
      · refine keeps_bind (keeps_attempt (lost_move henv b _ _ _)) fun r => ?_
        cases r with
        | ok _ => exact keeps_pure _
        | error _ => exact keeps_pure _
  · have hend : Keeps (Says (Lost id)) (do
        let _ ← (env.removeEmpty b oldDir).attempt
        Pure.pure () : Rename S Unit) := by
      refine keeps_bind (keeps_attempt ?_) fun _ => keeps_pure ()
      refine keeps_bind (lost_storage henv b _) fun entries => ?_
      split_ifs
      · exact lost_storage henv b _
      · exact keeps_pure ()
    by_cases hmoved : moved = []
    · simp only [if_pos hmoved]
      exact hend
    · simp only [if_neg hmoved]
      exact keeps_bind (lost_updateItem henv first.id fun _ => ⟨rfl, fun _ h => h⟩) fun _ => hend

/-- What lies beside the files is handled. -/
theorem lost_finish (groups : List (Text × List RenameItem)) :
    Keeps (Says (Lost id)) (env.finishDirectoryAssets groups) := by
  refine keeps_foldlM (fun _ g => ?_) () groups
  unfold finishDirectory
  split
  · split_ifs
    · exact keeps_pure ()
    · refine keeps_bind (lost_ask henv _) fun backend => ?_
      cases backend with
      | none => exact keeps_pure ()
      | some b =>
        refine keeps_bind (keeps_attempt (lost_storage henv b _)) fun entries => ?_
        cases entries with
        | error _ => exact keeps_pure ()
        | ok entries =>
          dsimp only
          split_ifs
          · exact keeps_pure ()
          · exact lost_moveAssets henv b _ _ _ _
  · exact keeps_pure ()

end RenameEnv

end WolfNas
