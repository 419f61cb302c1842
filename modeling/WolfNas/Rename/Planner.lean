import WolfNas.Rename.Executor

/-!
# The plan of a job, over several backends

The planner takes the files that it finds in the libraries, decides where each is to go, and marks
those that are to go to one place as conflicting.  It looks at the paths alone, and so does the
executor where it puts the items of a directory together, though equal paths of two backends are
two places.

## Main definitions

* `plannerNorm` — `_norm`.
* `PlannedItem`, `markConflicts` — the items of a plan, and those in conflict.
* `scanFiles`, `buildItems` — the files that are taken, and the plan.
* `BackendAware` — conflicts and directories are those of one backend.

## Main results

* `conflict_markConflicts_iff` — the candidates that are marked.
* `backendAware_iff` — the plans whose conflicts and directories are those of one backend.
-/

namespace WolfNas

open Text

/-! ## Paths -/

/-- `^[A-Za-z]:[\\/]`, or a share. -/
def isWindowsPath : Text → Bool
  | '\\' :: '\\' :: _ => true
  | c :: ':' :: s :: _ => c.isAlpha && (s = '\\' || s = '/')
  | _ => false

/-- `_norm`. -/
def plannerNorm (path : Text) : Text :=
  let text := strip path
  if text = [] then []
  else if isWindowsPath text then Path.normpath text
  else normPath text

/-! ## The plan -/

/-- An item of a plan, with the reason of what is to be done with it. -/
structure PlannedItem where
  item : RenameItem
  reason : Option Text := none
  deriving DecidableEq

namespace PlannedItem

/-- The file is to be renamed. -/
def Candidate (x : PlannedItem) : Prop := x.item.action = .rename ∧ x.item.newPath ≠ []

instance (x : PlannedItem) : Decidable x.Candidate := inferInstanceAs (Decidable (_ ∧ _))

/-- The files are to go to one path. -/
def SameTarget (x y : PlannedItem) : Prop :=
  plannerNorm x.item.newPath = plannerNorm y.item.newPath

instance (x y : PlannedItem) : Decidable (x.SameTarget y) := inferInstanceAs (Decidable (_ = _))

/-- The files are on one backend. -/
def SameBackend (x y : PlannedItem) : Prop :=
  normalizeBackend x.item.backendId = normalizeBackend y.item.backendId

instance (x y : PlannedItem) : Decidable (x.SameBackend y) := inferInstanceAs (Decidable (_ = _))

/-- The item as it is marked. -/
def conflicting (x : PlannedItem) : PlannedItem where
  item := { x.item with action := .conflict }
  reason := some (of "duplicate_target")

end PlannedItem

/-- How many candidates are to go where an item is to go. -/
def targetCount (items : List PlannedItem) (x : PlannedItem) : ℕ :=
  items.countP fun y => y.Candidate ∧ x.SameTarget y

/-- `_mark_conflicts`. -/
def markConflicts (items : List PlannedItem) : List PlannedItem :=
  items.map fun x => if x.Candidate ∧ 1 < targetCount items x then x.conflicting else x

/-- A library. -/
structure LibraryRoot where
  root : Text
  backendId : Text
  deriving DecidableEq

/-- What is decided about a file: what is to be done, why, and where it is to go. -/
structure PlanDecision where
  action : ItemAction
  reason : Option Text := none
  newPath : Text := []
  oldSize : Option ℤ := none
  oldMtime : Option ℚ := none
  snapshot : RenameSnapshot := {}

/-- The files that are taken of those that are found: those wanted, each once on its backend, up
to the limit. -/
def scanFiles (wanted : LibraryRoot → Text → Bool) (limit : ℕ)
    (files : List (LibraryRoot × Text)) :
    List (LibraryRoot × Text) → List (LibraryRoot × Text)
  | [] => files
  | (root, path) :: found =>
    if max 1 limit ≤ files.length then files
    else if !wanted root path ∨
        files.any fun f => f.1.backendId = root.backendId ∧ f.2 = plannerNorm path then
      scanFiles wanted limit files found
    else scanFiles wanted limit (files ++ [(root, plannerNorm path)]) found

/-- `_plan_one`, where this is decided. -/
def planOne (decide : LibraryRoot → Text → PlanDecision) (jobId : ℕ) (file : LibraryRoot × Text) :
    PlannedItem where
  item :=
    { id := 0
      jobId := jobId
      backendId := normalizeBackend file.1.backendId
      root := file.1.root
      oldPath := file.2
      newPath := (decide file.1 file.2).newPath
      oldSize := (decide file.1 file.2).oldSize
      oldMtime := (decide file.1 file.2).oldMtime
      action := (decide file.1 file.2).action
      snapshot := (decide file.1 file.2).snapshot }
  reason := (decide file.1 file.2).reason

/-- `build_items`. -/
def buildItems (wanted : LibraryRoot → Text → Bool) (limit : ℕ)
    (decide : LibraryRoot → Text → PlanDecision) (jobId : ℕ)
    (found : List (LibraryRoot × Text)) : List PlannedItem :=
  markConflicts (((scanFiles wanted limit [] found).insertionSort fun f g => f.2 ≤ g.2).map
    (planOne decide jobId))

/-! ## Conflicts -/

/-- Where an element is counted, more than one is counted exactly where another is. -/
theorem one_lt_countP_iff {α : Type} {p : α → Bool} {l : List α} {i : ℕ} {x : α}
    (hi : l[i]? = some x) (hx : p x = true) :
    1 < l.countP p ↔ ∃ j y, j ≠ i ∧ l[j]? = some y ∧ p y = true := by
  obtain ⟨hlt, rfl⟩ := List.getElem?_eq_some_iff.mp hi
  have hsplit : l = l.take i ++ l[i] :: l.drop (i + 1) := by
    rw [List.getElem_cons_drop, List.take_append_drop]
  have hcount : l.countP p = (l.take i).countP p + (l.drop (i + 1)).countP p + 1 := by
    conv_lhs => rw [hsplit, List.countP_append, List.countP_cons_of_pos hx]
    omega
  rw [hcount]
  constructor
  · intro hmore
    have hside : 0 < (l.take i).countP p ∨ 0 < (l.drop (i + 1)).countP p := by omega
    rcases hside with hfront | hback
    · obtain ⟨y, hmem, hy⟩ := List.countP_pos_iff.mp hfront
      obtain ⟨j, hj⟩ := List.mem_iff_getElem?.mp hmem
      rw [List.getElem?_take] at hj
      split_ifs at hj with hlt'
      exact ⟨j, y, by omega, hj, hy⟩
    · obtain ⟨y, hmem, hy⟩ := List.countP_pos_iff.mp hback
      obtain ⟨j, hj⟩ := List.mem_iff_getElem?.mp hmem
      rw [List.getElem?_drop] at hj
      exact ⟨i + 1 + j, y, by omega, hj, hy⟩
  · intro ⟨j, y, hne, hj, hy⟩
    rcases Nat.lt_or_gt_of_ne hne with hfront | hback
    · have hmem : y ∈ l.take i := List.mem_iff_getElem?.mpr ⟨j, by rw [List.getElem?_take,
        if_pos hfront, hj]⟩
      have := List.countP_pos_iff.mpr ⟨y, hmem, hy⟩
      omega
    · have hmem : y ∈ l.drop (i + 1) := List.mem_iff_getElem?.mpr ⟨j - (i + 1), by
        rw [List.getElem?_drop, ← hj]
        congr 1
        omega⟩
      have := List.countP_pos_iff.mpr ⟨y, hmem, hy⟩
      omega

/-- Another candidate than the one of an index is to go where an item is to go. -/
def Shares (items : List PlannedItem) (i : ℕ) (x : PlannedItem) : Prop :=
  ∃ j y, j ≠ i ∧ items[j]? = some y ∧ y.Candidate ∧ x.SameTarget y

/-- One on the backend of the item is. -/
def SharesHere (items : List PlannedItem) (i : ℕ) (x : PlannedItem) : Prop :=
  ∃ j y, j ≠ i ∧ items[j]? = some y ∧ y.Candidate ∧ x.SameTarget y ∧ x.SameBackend y

section Marks

variable {items : List PlannedItem} {i : ℕ} {x : PlannedItem}

theorem one_lt_targetCount_iff (hi : items[i]? = some x) (hx : x.Candidate) :
    1 < targetCount items x ↔ Shares items i x := by
  have hself : decide (x.Candidate ∧ x.SameTarget x) = true := decide_eq_true ⟨hx, rfl⟩
  rw [targetCount, one_lt_countP_iff hi hself]
  simp only [Shares, decide_eq_true_eq]

/-- A candidate is marked exactly where another one is to go to its target, on whatever backend. -/
theorem conflict_markConflicts_iff (hi : items[i]? = some x) (hx : x.Candidate) :
    (∃ y, (markConflicts items)[i]? = some y ∧ y.item.action = .conflict) ↔ Shares items i x := by
  rw [← one_lt_targetCount_iff hi hx, markConflicts, List.getElem?_map, hi, Option.map_some]
  simp only [Option.some.injEq, exists_eq_left']
  split_ifs with hmarked
  · exact iff_of_true rfl hmarked.2
  · refine iff_of_false ?_ fun hcount => hmarked ⟨hx, hcount⟩
    rw [hx.1]
    simp

/-- What is still to be renamed is what was and is alone to go to its target. -/
theorem mem_renames_iff {y : RenameItem} :
    y ∈ ((markConflicts items).map PlannedItem.item).filter
        (fun z => z.action = .rename ∧ z.newPath ≠ []) ↔
      ∃ i x, items[i]? = some x ∧ x.Candidate ∧ ¬Shares items i x ∧ x.item = y := by
  simp only [List.mem_filter, List.mem_map, markConflicts, List.map_map]
  constructor
  · rintro ⟨⟨x, hmem, rfl⟩, hrename⟩
    obtain ⟨i, hi⟩ := List.mem_iff_getElem?.mp hmem
    simp only [Function.comp_apply] at hrename ⊢
    split_ifs at hrename ⊢ with hmarked
    · simp [PlannedItem.conflicting] at hrename
    · have hx : x.Candidate := by simpa [PlannedItem.Candidate] using hrename
      exact ⟨i, x, hi, hx, fun hshares =>
        hmarked ⟨hx, (one_lt_targetCount_iff hi hx).mpr hshares⟩, rfl⟩
  · rintro ⟨i, x, hi, hx, hunshared, rfl⟩
    have hcount : ¬(x.Candidate ∧ 1 < targetCount items x) := fun h =>
      hunshared ((one_lt_targetCount_iff hi hx).mp h.2)
    refine ⟨⟨x, List.mem_of_getElem? hi, ?_⟩, by simpa [PlannedItem.Candidate] using hx⟩
    simp [hcount]

end Marks

/-! ## Directories -/

/-- The items of a group are those to rename of one directory. -/
theorem directoryGroups_forall_iff {items : List RenameItem} {P : RenameItem → RenameItem → Prop} :
    (∀ group ∈ RenameEnv.directoryGroups items, ∀ x ∈ group.2, ∀ y ∈ group.2, P x y) ↔
      ∀ x ∈ items.filter (fun z => z.action = .rename ∧ z.newPath ≠ []),
        ∀ y ∈ items.filter (fun z => z.action = .rename ∧ z.newPath ≠ []),
          dirnameOf x.oldPath = dirnameOf y.oldPath → P x y := by
  simp only [RenameEnv.directoryGroups, List.forall_mem_map, List.mem_eraseDups]
  constructor
  · intro h x hx y hy hdir
    exact h x hx x (List.mem_filter.mpr ⟨hx, decide_eq_true rfl⟩) y
      (List.mem_filter.mpr ⟨hy, decide_eq_true hdir.symm⟩)
  · intro h z _ x hx y hy
    obtain ⟨hx, hxdir⟩ := List.mem_filter.mp hx
    obtain ⟨hy, hydir⟩ := List.mem_filter.mp hy
    exact h x hx y hy ((of_decide_eq_true hxdir).trans (of_decide_eq_true hydir).symm)

/-! ## Backends -/

/-- A candidate is marked exactly where another one is to go to its target on its backend, and the
items that the executor puts together for a directory are on one backend. -/
structure BackendAware (items : List PlannedItem) : Prop where
  marked : ∀ i x, items[i]? = some x → x.Candidate →
    ((∃ y, (markConflicts items)[i]? = some y ∧ y.item.action = .conflict) ↔ SharesHere items i x)
  grouped : ∀ group ∈ RenameEnv.directoryGroups ((markConflicts items).map PlannedItem.item),
    ∀ x ∈ group.2, ∀ y ∈ group.2, normalizeBackend x.backendId = normalizeBackend y.backendId

/-- The conflicts and the directories of a plan are those of one backend exactly where every
candidate that shares its target shares it with one on its backend, and no two that do not, of one
directory's name, are on different backends. -/
theorem backendAware_iff (items : List PlannedItem) :
    BackendAware items ↔
      (∀ i x, items[i]? = some x → x.Candidate → Shares items i x → SharesHere items i x) ∧
      ∀ i x j y, items[i]? = some x → x.Candidate → ¬Shares items i x →
        items[j]? = some y → y.Candidate → ¬Shares items j y →
        dirnameOf x.item.oldPath = dirnameOf y.item.oldPath → x.SameBackend y := by
  have hgrouped := @directoryGroups_forall_iff ((markConflicts items).map PlannedItem.item)
    fun x y => normalizeBackend x.backendId = normalizeBackend y.backendId
  simp only [mem_renames_iff] at hgrouped
  constructor
  · intro h
    refine ⟨fun i x hi hx hshares => ?_, fun i x j y hi hx hunshared hj hy hunshared' hdir => ?_⟩
    · exact (h.marked i x hi hx).mp ((conflict_markConflicts_iff hi hx).mpr hshares)
    · exact hgrouped.mp h.grouped x.item ⟨i, x, hi, hx, hunshared, rfl⟩ y.item
        ⟨j, y, hj, hy, hunshared', rfl⟩ hdir
  · intro ⟨hshares, hdirs⟩
    refine ⟨fun i x hi hx => ?_, hgrouped.mpr ?_⟩
    · rw [conflict_markConflicts_iff hi hx]
      constructor
      · exact hshares i x hi hx
      · intro ⟨j, y, hne, hj, hy, htarget, _⟩
        exact ⟨j, y, hne, hj, hy, htarget⟩
    · rintro _ ⟨i, x, hi, hx, hunshared, rfl⟩ _ ⟨j, y, hj, hy, hunshared', rfl⟩ hdir
      exact hdirs i x j y hi hx hunshared hj hy hunshared' hdir

/-- A candidate to rename on a backend. -/
def candidateOn (backendId oldPath newPath : Text) : PlannedItem where
  item := { id := 0, jobId := 1, backendId := backendId, root := of "/tv", oldPath := oldPath,
            newPath := newPath }

/-- Two backends have the same library, and each file is to have the same name on its own. -/
theorem not_backendAware_mirror :
    ¬BackendAware [candidateOn (of "1") (of "/tv/a.mkv") (of "/tv/A/A.mkv"),
      candidateOn (of "2") (of "/tv/a.mkv") (of "/tv/A/A.mkv")] := by
  intro h
  have hmarked := (h.marked 0 _ rfl (by decide)).mp ⟨_, rfl, by decide⟩
  obtain ⟨j, y, hne, hj, -, -, hbackend⟩ := hmarked
  cases j with
  | zero => exact hne rfl
  | succ j =>
    cases j with
    | zero =>
      cases hj
      revert hbackend
      decide
    | succ j => simp at hj

end WolfNas
