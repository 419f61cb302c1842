import WolfNas.Lib.Table
import WolfNas.Lib.Text
import Mathlib.Data.List.Sort

/-!
# The menus of the web interface

The menus are rows of a table that point at their parents.  A number of them is built in: at every
start the built-in menus that the program no longer has are deleted, those that are missing are
created, and of the others only what the web interface depends on is written over.  A built-in menu
that was deleted by hand leaves a tombstone, and is not created again until the menus are reset.

## Main definitions

* `Forest α` — forests with labels in `α`; `Forest.labels` — all labels.
* `Menu`, `MenuTable` — the rows; ids and codes are unique.
* `MenuData` — an entry of `DEFAULT_MENUS`.
* `MenuStore` — the rows, the menus of the roles, and the tombstones.
* `MenuStore.updateMenu`, `MenuStore.deleteMenu`, `MenuEnv.createMenu` — the operations of
  `RBACMenuRepository`.
* `MenuEnv.sync`, `MenuEnv.initRbacMenus` — `sync_menu_recursive` and `init_rbac_menus`.
* `MenuMove`, `MenuEnv.step` — the operations of `RBACMenuService`, and a start.

## Main results

* `MenuTable.byCode_put`, `MenuTable.byCode_insert` — what is found under a code after a change.
-/

namespace WolfNas

open Text

/-! ## Forests -/

/-- A list of trees: the first one, with what hangs under its label, and the others. -/
inductive Forest (α : Type)
  | nil
  | cons (a : α) (children rest : Forest α)
  deriving DecidableEq

namespace Forest

variable {α : Type}

/-- All labels, each one before what hangs under it. -/
def labels : Forest α → List α
  | nil => []
  | cons a children rest => a :: (children.labels ++ rest.labels)

@[simp] theorem labels_nil : (nil : Forest α).labels = [] := rfl

@[simp] theorem labels_cons (a : α) (children rest : Forest α) :
    (cons a children rest).labels = a :: (children.labels ++ rest.labels) := rfl

end Forest

/-! ## Rows -/

/-- A row of `RBAC_MENUS`. -/
structure Menu where
  id : ℕ
  name : Text
  code : Text
  parentId : Option ℕ := none
  path : Option Text := none
  icon : Option Text := none
  component : Option Text := none
  sortOrder : ℤ := 0
  level : ℤ := 1
  status : ℤ := 1
  permissionCode : Option Text := none
  redirect : Option Text := none
  hideInMenu : ℤ := 0
  isBuiltin : ℤ := 0
  deriving DecidableEq

/-- An entry of `DEFAULT_MENUS`, but for its children. -/
structure MenuData where
  name : Text
  code : Text
  path : Option Text := none
  icon : Option Text := none
  component : Option Text := none
  sortOrder : ℤ := 0
  level : ℤ := 1
  permissionCode : Option Text := none
  hideInMenu : ℤ := 0
  deriving DecidableEq

/-- By sort order, equal ones as they come. -/
def bySortOrder (l : List Menu) : List Menu := l.insertionSort fun a b => a.sortOrder ≤ b.sortOrder

/-- The table: no id stands twice, and no code. -/
structure MenuTable extends Table Menu.id where
  codes : (rows.map Menu.code).Nodup

namespace MenuTable

variable (t : MenuTable)

/-- `get_menu_by_id`. -/
def byId (id : ℕ) : Option Menu := t.rows.find? fun m => m.id = id

/-- `get_menu_by_code`. -/
def byCode (code : Text) : Option Menu := t.rows.find? fun m => m.code = code

variable {t} {m m' : Menu} {id : ℕ} {code : Text}

/-- The code tells the rows apart. -/
theorem eq_of_code (hm : m ∈ t.rows) (hm' : m' ∈ t.rows) (h : m.code = m'.code) : m = m' :=
  List.inj_on_of_nodup_map t.codes hm hm' h

theorem byId_eq_some : t.byId id = some m ↔ m ∈ t.rows ∧ m.id = id :=
  List.find?_key_eq_some t.nodup

theorem byCode_eq_some : t.byCode code = some m ↔ m ∈ t.rows ∧ m.code = code :=
  List.find?_key_eq_some t.codes

theorem byCode_eq_none : t.byCode code = none ↔ ∀ m ∈ t.rows, m.code ≠ code := by
  simp [byCode, List.find?_eq_none]

/-- The row with the id of `m` becomes `m`, unless another row has its code. -/
def put (t : MenuTable) (m : Menu) : MenuTable :=
  if h : ∀ r ∈ t.rows, r.id ≠ m.id → r.code ≠ m.code then
    { toTable := t.toTable.update m.id (fun r => { m with id := r.id }) fun _ => rfl
      codes := by
        refine List.Nodup.map_on ?_ (List.Nodup.of_map Menu.id (Table.nodup _))
        intro r hr r' hr' hcode
        obtain ⟨r₀, hr₀, rfl⟩ := List.mem_map.mp hr
        obtain ⟨r₁, hr₁, rfl⟩ := List.mem_map.mp hr'
        split_ifs at hcode ⊢ with h₀ h₁ h₁
        · simp only [h₀, h₁]
        · exact absurd hcode.symm (h r₁ hr₁ h₁)
        · exact absurd hcode (h r₀ hr₀ h₀)
        · rw [eq_of_code hr₀ hr₁ hcode] }
  else t

/-- The table with one more row. -/
def insert (t : MenuTable) (m : Menu) (hid : ∀ r ∈ t.rows, r.id ≠ m.id)
    (hcode : ∀ r ∈ t.rows, r.code ≠ m.code) : MenuTable where
  rows := t.rows ++ [m]
  nodup := by
    have h : ∀ r ∈ t.rows, m.id ≠ r.id := fun r hr => (hid r hr).symm
    simpa [List.nodup_append, t.nodup] using fun r hr => hid r hr
  codes := by
    simpa [List.nodup_append, t.codes] using fun r hr => hcode r hr

/-- The rows that are not removed. -/
def remove (t : MenuTable) (gone : Menu → Bool) : MenuTable where
  rows := t.rows.filter fun m => !gone m
  nodup := t.nodup.sublist (List.filter_sublist.map Menu.id)
  codes := t.codes.sublist (List.filter_sublist.map Menu.code)

theorem mem_put (hput : ∀ r ∈ t.rows, r.id ≠ m.id → r.code ≠ m.code) {r : Menu} :
    r ∈ (t.put m).rows ↔ (r = m ∧ ∃ r₀ ∈ t.rows, r₀.id = m.id) ∨ r ∈ t.rows ∧ r.id ≠ m.id := by
  rw [put, dif_pos hput]
  refine List.mem_map.trans ?_
  constructor
  · rintro ⟨r₀, hr₀, rfl⟩
    split_ifs with hid
    · exact .inl ⟨by simp only [hid], r₀, hr₀, hid⟩
    · exact .inr ⟨hr₀, hid⟩
  · rintro (⟨rfl, r₀, hr₀, hid⟩ | ⟨hr, hid⟩)
    · exact ⟨r₀, hr₀, by simp only [hid, if_true]⟩
    · exact ⟨r, hr, if_neg hid⟩

/-- No id comes or goes with a row that is written over. -/
theorem ids_put (t : MenuTable) (m : Menu) : (t.put m).rows.map Menu.id = t.rows.map Menu.id := by
  rw [put]
  split_ifs with hput
  · change (t.rows.map _).map Menu.id = _
    rw [List.map_map]
    refine List.map_congr_left fun r _ => ?_
    simp only [Function.comp_apply]
    split_ifs <;> rfl
  · rfl

theorem eq_or_mem_of_mem_put {r : Menu} (hr : r ∈ (t.put m).rows) : r = m ∨ r ∈ t.rows := by
  by_cases hput : ∀ r ∈ t.rows, r.id ≠ m.id → r.code ≠ m.code
  · exact ((mem_put hput).mp hr).imp And.left And.left
  · rw [put, dif_neg hput] at hr
    exact .inr hr

@[simp] theorem mem_insert {hid : ∀ r ∈ t.rows, r.id ≠ m.id}
    {hcode : ∀ r ∈ t.rows, r.code ≠ m.code} {r : Menu} :
    r ∈ (t.insert m hid hcode).rows ↔ r ∈ t.rows ∨ r = m := by
  simp [insert]

@[simp] theorem mem_remove {gone : Menu → Bool} {r : Menu} :
    r ∈ (t.remove gone).rows ↔ r ∈ t.rows ∧ gone r = false := by
  simp [remove]

/-- **A row is written over**, and keeps its code: the others are found as before. -/
theorem byCode_put (hm : m ∈ t.rows) (hid : m'.id = m.id) (hcode : m'.code = m.code) (code : Text) :
    (t.put m').byCode code = if code = m.code then some m' else t.byCode code := by
  have hput : ∀ r ∈ t.rows, r.id ≠ m'.id → r.code ≠ m'.code := by
    intro r hr hne heq
    exact hne ((congrArg Menu.id (eq_of_code hr hm (heq.trans hcode))).trans hid.symm)
  refine Option.ext fun r => ?_
  split_ifs with hc
  · subst hc
    rw [byCode_eq_some, mem_put hput, Option.some.injEq]
    constructor
    · rintro ⟨⟨rfl, -⟩ | ⟨hr, hne⟩, hrcode⟩
      · rfl
      · rw [eq_of_code hr hm hrcode] at hne
        exact absurd hid.symm hne
    · rintro rfl
      exact ⟨.inl ⟨rfl, m, hm, hid.symm⟩, hcode⟩
  · rw [byCode_eq_some, byCode_eq_some, mem_put hput]
    constructor
    · rintro ⟨⟨rfl, -⟩ | ⟨hr, -⟩, hrcode⟩
      · exact absurd (hrcode.symm.trans hcode) hc
      · exact ⟨hr, hrcode⟩
    · rintro ⟨hr, hrcode⟩
      refine ⟨.inr ⟨hr, fun hrid => hc ?_⟩, hrcode⟩
      rw [← hrcode, Table.eq_of_key (t := t.toTable) hr hm (hrid.trans hid)]

/-- **A row is added**: the others are found as before. -/
theorem byCode_insert (hid : ∀ r ∈ t.rows, r.id ≠ m.id) (hcode : ∀ r ∈ t.rows, r.code ≠ m.code)
    (code : Text) :
    (t.insert m hid hcode).byCode code = if code = m.code then some m else t.byCode code := by
  refine Option.ext fun r => ?_
  split_ifs with hc
  · subst hc
    rw [byCode_eq_some, mem_insert, Option.some.injEq]
    constructor
    · rintro ⟨hr | rfl, hrcode⟩
      · exact absurd hrcode (hcode r hr)
      · rfl
    · rintro rfl
      exact ⟨.inr rfl, rfl⟩
  · rw [byCode_eq_some, byCode_eq_some, mem_insert]
    constructor
    · rintro ⟨hr | rfl, hrcode⟩
      · exact ⟨hr, hrcode⟩
      · exact absurd hrcode.symm hc
    · rintro ⟨hr, hrcode⟩
      exact ⟨.inl hr, hrcode⟩

end MenuTable

/-! ## The operations of the repository -/

/-- The menus, the roles, which menus these have, and the codes of built-in menus that were deleted
by hand. -/
structure MenuStore where
  menus : MenuTable
  roles : List ℕ := []
  roleMenus : List (ℕ × ℕ) := []
  tombstones : List Text := []

/-- The fields that `update_menu` is given. -/
structure MenuUpdate where
  name : Option Text := none
  code : Option Text := none
  path : Option (Option Text) := none
  icon : Option (Option Text) := none
  component : Option (Option Text) := none
  parentId : Option (Option ℕ) := none
  sortOrder : Option ℤ := none
  status : Option ℤ := none
  permissionCode : Option (Option Text) := none
  redirect : Option (Option Text) := none
  hideInMenu : Option ℤ := none
  isBuiltin : Option ℤ := none
  deriving DecidableEq

/-- The level under a new parent; one that is not there leaves it. -/
def MenuUpdate.level (u : MenuUpdate) (find : ℕ → Option Menu) (m : Menu) : ℤ :=
  match u.parentId with
  | none => m.level
  | some none => 1
  | some (some p) =>
    match find p with
    | some parent => parent.level + 1
    | none => m.level

/-- The row with the fields that were given. -/
def MenuUpdate.apply (u : MenuUpdate) (find : ℕ → Option Menu) (m : Menu) : Menu where
  id := m.id
  name := u.name.getD m.name
  code := u.code.getD m.code
  parentId := u.parentId.getD m.parentId
  path := u.path.getD m.path
  icon := u.icon.getD m.icon
  component := u.component.getD m.component
  sortOrder := u.sortOrder.getD m.sortOrder
  level := u.level find m
  status := u.status.getD m.status
  permissionCode := u.permissionCode.getD m.permissionCode
  redirect := u.redirect.getD m.redirect
  hideInMenu := u.hideInMenu.getD m.hideInMenu
  isBuiltin := u.isBuiltin.getD m.isBuiltin

namespace MenuStore

variable (s : MenuStore)

/-- `get_all_menus`. -/
def getAllMenus : List Menu := bySortOrder s.menus.rows

/-- `RBACMenuRepository.update_menu`, and whether it succeeded; the code of another row is
refused by the database. -/
def updateMenu (id : ℕ) (u : MenuUpdate) : MenuStore × Bool :=
  match s.menus.byId id with
  | none => (s, false)
  | some m =>
    let m' := u.apply s.menus.byId m
    ({ s with menus := s.menus.put m' },
      decide (∀ r ∈ s.menus.rows, r.id ≠ m'.id → r.code ≠ m'.code))

/-- Whether `delete_menu` removes the row. -/
def removedWith (id : ℕ) (m : Menu) : Bool := m.id = id || m.parentId = some id

/-- `RBACMenuRepository.delete_menu`, and whether it succeeded.  The children are deleted first:
a menu that is its own parent goes with them, and is then not found. -/
def deleteMenu (id : ℕ) : MenuStore × Bool :=
  ({ s with
      menus := s.menus.remove (removedWith id)
      roleMenus := s.roleMenus.filter fun l =>
        !(decide (l.2 = id) || s.menus.rows.any fun m => m.id = l.2 && m.parentId = some id) },
    s.menus.rows.any fun m => m.id = id && m.parentId != some id)

/-- `RBACRoleRepository.assign_menus_to_role`. -/
def assignMenusToRole (role : ℕ) (ids : List ℕ) : MenuStore × Bool :=
  if role ∈ s.roles then
    ({ s with
        roleMenus := (s.roleMenus.filter fun l => l.1 ≠ role) ++
          (s.menus.rows.filter fun m => ids.contains m.id && m.status = 1).map
            fun m => (role, m.id) },
      true)
  else (s, false)

/-- `add_menu_tombstone`. -/
def addMenuTombstone (code : Text) : MenuStore :=
  if code = [] then s else { s with tombstones := s.tombstones.insert code }

/-- `remove_menu_tombstone`. -/
def removeMenuTombstone (code : Text) : MenuStore :=
  { s with tombstones := s.tombstones.filter fun c => c ≠ code }

/-- `get_menu_tombstones`. -/
def getMenuTombstones : List Text := s.tombstones.filter fun c => c ≠ []

/-- `clear_all_menu_tombstones`. -/
def clearAllMenuTombstones : MenuStore :=
  { s with tombstones := s.tombstones.filter fun c => c = [] }

end MenuStore

/-! ## The built-in menus -/

/-- The level of each entry is one more than that of the one it lies under. -/
def Levelled : ℤ → Forest MenuData → Prop
  | _, .nil => True
  | l, .cons d children rest => d.level = l ∧ Levelled (l + 1) children ∧ Levelled l rest

instance decidableLevelled : (l : ℤ) → (f : Forest MenuData) → Decidable (Levelled l f)
  | _, .nil => isTrue trivial
  | l, .cons d children rest =>
    have : Decidable (Levelled (l + 1) children) := decidableLevelled (l + 1) children
    have : Decidable (Levelled l rest) := decidableLevelled l rest
    inferInstanceAs (Decidable (d.level = l ∧ Levelled (l + 1) children ∧ Levelled l rest))

/-- The built-in menus, each code once, and the ids that the database gives. -/
structure MenuEnv where
  defaults : Forest MenuData
  nodup : (defaults.labels.map MenuData.code).Nodup
  levelled : Levelled 1 defaults
  freshId : MenuTable → ℕ
  fresh : ∀ t : MenuTable, ∀ m ∈ t.rows, m.id ≠ freshId t

/-- What `sync_menu_recursive` works on: the store, the tombstones that were read at the start, and
how many menus were created and updated. -/
structure SyncState where
  store : MenuStore
  tombstones : List Text := []
  created : ℕ := 0
  updated : ℕ := 0

/-- The row that is created for an entry. -/
def MenuData.toMenu (d : MenuData) (parentId : Option ℕ) : Menu where
  id := 0
  name := d.name
  code := d.code
  parentId := parentId
  path := d.path
  icon := d.icon
  component := d.component
  sortOrder := d.sortOrder
  level := d.level
  permissionCode := d.permissionCode
  hideInMenu := d.hideInMenu
  isBuiltin := 1

/-- The update of a reset: everything as it was delivered. -/
def MenuData.forced (d : MenuData) (parentId : Option ℕ) : MenuUpdate where
  name := some d.name
  path := some d.path
  icon := some d.icon
  component := some d.component
  sortOrder := some d.sortOrder
  permissionCode := some d.permissionCode
  hideInMenu := some d.hideInMenu
  parentId := some parentId
  status := some 1
  isBuiltin := some 1

/-- The update of a start: only what the web interface depends on, where it differs. -/
def MenuData.technical (d : MenuData) (m : Menu) : MenuUpdate where
  path := if m.path = d.path then none else some d.path
  component := if m.component = d.component then none else some d.component
  isBuiltin := if m.isBuiltin = 1 then none else some 1

namespace MenuEnv

variable (env : MenuEnv)

/-- The codes of the built-in menus. -/
def defaultCodes : List Text := env.defaults.labels.map MenuData.code

/-- The row that is created: it gets a new id, and is enabled. -/
def newRow (s : MenuStore) (m : Menu) : Menu := { m with id := env.freshId s.menus, status := 1 }

/-- `RBACMenuRepository.create_menu`; the code of another row is refused by the database. -/
def createMenu (s : MenuStore) (m : Menu) : MenuStore × Option Menu :=
  if h : ∀ r ∈ s.menus.rows, r.code ≠ m.code then
    ({ s with menus := s.menus.insert (env.newRow s m) (env.fresh s.menus) h },
      some (env.newRow s m))
  else (s, none)

/-- A built-in menu that the program no longer has. -/
def obsolete (m : Menu) : Bool :=
  !env.defaultCodes.contains m.code && !m.code.startsWith (of "Plugin_") && m.isBuiltin = 1

/-- The first part of `init_rbac_menus`: obsolete menus are deleted, the deepest first. -/
def dropObsolete (s : MenuStore) : MenuStore :=
  ((s.getAllMenus.filter env.obsolete).insertionSort fun a b => b.level ≤ a.level).foldl
    (fun s m => (s.deleteMenu m.id).1) s

/-- `sync_menu_recursive` on an entry, without its children: their parent, unless they are left
out. -/
def syncEntry (force : Bool) (d : MenuData) (parentId : Option ℕ) (st : SyncState) :
    SyncState × Option ℕ :=
  match st.store.menus.byCode d.code with
  | some m =>
    -- the menu was created again by hand
    let st := if d.code ∈ st.tombstones then
      { st with
          store := st.store.removeMenuTombstone d.code
          tombstones := st.tombstones.filter fun c => c ≠ d.code }
      else st
    let updates := if force then d.forced parentId else d.technical m
    let st := if updates = {} then st else
      { st with store := (st.store.updateMenu m.id updates).1, updated := st.updated + 1 }
    (st, some m.id)
  | none =>
    if d.code ∈ st.tombstones then (st, none)
    else match env.createMenu st.store (d.toMenu parentId) with
      | (store, some m) => ({ st with store := store, created := st.created + 1 }, some m.id)
      | (_, none) => (st, none)

/-- `sync_menu_recursive` on a list of entries. -/
def sync (force : Bool) : Forest MenuData → Option ℕ → SyncState → SyncState
  | .nil, _, st => st
  | .cons d children rest, parentId, st =>
    match env.syncEntry force d parentId st with
    | (st, some id) => sync force rest parentId (sync force children (some id) st)
    | (st, none) => sync force rest parentId st

/-- What `sync_menu_recursive` begins with. -/
def syncStart (force : Bool) (s : MenuStore) : SyncState where
  store := env.dropObsolete s
  tombstones := if force then [] else (env.dropObsolete s).getMenuTombstones

/-- `init_rbac_menus`, and how many menus it created or updated. -/
def initRbacMenus (force : Bool) (s : MenuStore) : MenuStore × ℕ :=
  let st := env.sync force env.defaults none (env.syncStart force s)
  (st.store, st.created + st.updated)

/-! ## The operations of the service -/

/-- `RBACMenuService.create_menu`. -/
def create (s : MenuStore) (m : Menu) : MenuStore :=
  match s.menus.byCode m.code with
  | some _ => s
  | none => (env.createMenu s m).1

end MenuEnv

/-- `RBACMenuService.delete_menu`; the flag says that the tombstone could be recorded. -/
def MenuStore.delete (s : MenuStore) (id : ℕ) (recorded : Bool) : MenuStore :=
  match s.menus.byId id with
  | none => s
  | some m =>
    match s.deleteMenu id with
    | (s, false) => s
    | (s, true) => if m.isBuiltin = 1 ∧ recorded = true then s.addMenuTombstone m.code else s

/-- `RBACMenuService.reset_menus`. -/
def MenuEnv.resetMenus (env : MenuEnv) (s : MenuStore) : MenuStore × ℕ :=
  env.initRbacMenus true s.clearAllMenuTombstones

/-- What happens to the menus. -/
inductive MenuMove
  | create (m : Menu)
  | update (id : ℕ) (u : MenuUpdate)
  | delete (id : ℕ) (recorded : Bool)
  | assign (role : ℕ) (ids : List ℕ)
  | start
  | reset

/-- The store after a move. -/
def MenuEnv.step (env : MenuEnv) (s : MenuStore) : MenuMove → MenuStore
  | .create m => env.create s m
  | .update id u => (s.updateMenu id u).1
  | .delete id recorded => s.delete id recorded
  | .assign role ids => (s.assignMenusToRole role ids).1
  | .start => (env.initRbacMenus false s).1
  | .reset => (env.resetMenus s).1

end WolfNas
