import WolfNas.Menu.Defaults
import WolfNas.Menu.Startup
import WolfNas.Lib.Run

/-!
# Menus over many starts

What holds of the menus over any sequence of starts, resets, and changes by users.

## Main definitions

* `MenuData.beneath` — the codes of an entry and of those under it.
* `MenuEnv.Buried` — a built-in menu was deleted, and some of the codes under it have no row.
* `MenuStore.Linked` — no role has a menu that is not there.

## Main results

* `MenuEnv.run_buried` — a built-in menu that was deleted stays deleted, and what was deleted under
  it, until it is created by hand or the menus are reset.
* `MenuEnv.run_linked` — no role ever has a menu that is not there, so that nobody has a new one.
-/

namespace WolfNas

open Text

/-! ## Deleted menus -/

/-- The codes of an entry and of those under it. -/
def MenuData.beneath (code : Text) : Forest MenuData → List Text
  | .nil => []
  | .cons d children rest =>
    if d.code = code then d.code :: children.labels.map MenuData.code
    else beneath code children ++ beneath code rest

namespace MenuEnv

open MenuData

variable {env : MenuEnv} {s : MenuStore} {m : Menu} {c code : Text} {force : Bool} {d : MenuData}
  {p : Option ℕ} {st : SyncState} {f : Forest MenuData} {F : List Text}

theorem beneath_subset : beneath code f ⊆ f.labels.map MenuData.code := by
  induction f with
  | nil => simp [beneath]
  | cons d children rest ihchildren ihrest =>
    intro c hc
    rw [beneath] at hc
    simp only [Forest.labels_cons, List.map_cons, List.map_append, List.mem_cons, List.mem_append]
    split_ifs at hc with hd
    · exact (List.mem_cons.mp hc).imp_right .inl
    · exact .inr ((List.mem_append.mp hc).imp (fun hc => ihchildren hc) fun hc => ihrest hc)

/-- A built-in menu was deleted: it has its tombstone, and the codes `F` have no row. -/
structure Buried (s : MenuStore) (code : Text) (F : List Text) : Prop where
  nonempty : code ≠ []
  tombstone : code ∈ s.tombstones
  self : code ∈ F
  missing : ∀ c ∈ F, s.menus.byCode c = none

/-- The entry of a buried menu is left out with its children, so that nothing is found under their
codes after a start. -/
theorem buried_sync (st : SyncState) (hst : InStep st) (h : Buried st.store code F)
    (hf : (f.labels.map MenuData.code).Nodup)
    (hF : ∀ c ∈ F, c ∈ f.labels.map MenuData.code → c ∈ beneath code f) (p : Option ℕ) :
    Buried (env.sync false f p st).store code F := by
  induction f generalizing p st with
  | nil => exact h
  | cons d children rest ihchildren ihrest =>
    simp only [Forest.labels_cons, List.map_cons, List.map_append, List.nodup_cons,
      List.nodup_append, List.mem_append, not_or] at hf
    obtain ⟨⟨hdchildren, hdrest⟩, hchildren, hrest, hapart⟩ := hf
    simp only [Forest.labels_cons, List.map_cons, List.map_append, List.mem_cons, List.mem_append,
      beneath] at hF
    have hstep := env.entryStep false d p st
    by_cases hd : d.code = code
    · subst hd
      have hread : d.code ∈ st.tombstones :=
        (hst d.code).mpr (MenuStore.mem_getMenuTombstones.mpr ⟨h.tombstone, h.nonempty⟩)
      have hentry : env.syncEntry false d p st = (st, none) := by
        simp [syncEntry, h.missing d.code h.self, hread]
      rw [sync_cons_none (by rw [hentry]), hentry]
      refine ihrest _ hst h hrest (fun c hc hcrest => ?_) p
      have hin := hF c hc (.inr (.inr hcrest))
      rw [if_pos rfl] at hin
      rcases List.mem_cons.mp hin with rfl | hin
      · exact absurd hcrest hdrest
      · exact absurd rfl (hapart c hin c hcrest)
    · rw [if_neg hd] at hF
      have hdF : d.code ∉ F := by
        intro hmem
        rcases List.mem_append.mp (hF d.code hmem (.inl rfl)) with hin | hin
        · exact hdchildren (beneath_subset hin)
        · exact hdrest (beneath_subset hin)
      have hFchildren : ∀ c ∈ F, c ∈ children.labels.map MenuData.code →
          c ∈ beneath code children := by
        intro c hc hin
        refine (List.mem_append.mp (hF c hc (.inr (.inl hin)))).resolve_right fun hin' => ?_
        exact hapart c hin c (beneath_subset hin') rfl
      have hFrest : ∀ c ∈ F, c ∈ rest.labels.map MenuData.code → c ∈ beneath code rest := by
        intro c hc hin
        refine (List.mem_append.mp (hF c hc (.inr (.inr hin)))).resolve_left fun hin' => ?_
        exact hapart c (beneath_subset hin') c hin rfl
      have hst₁ : InStep (env.syncEntry false d p st).1 := inStep_entry hst false d p
      have h₁ : Buried (env.syncEntry false d p st).1.store code F :=
        { nonempty := h.nonempty
          tombstone := (hstep.tombstones_of_ne (Ne.symm hd)).1.mpr h.tombstone
          self := h.self
          missing := fun c hc => (hstep.byCode_of_ne fun heq => hdF (heq ▸ hc)).trans
            (h.missing c hc) }
      cases hid : (env.syncEntry false d p st).2 with
      | some id =>
        rw [sync_cons_some hid]
        exact ihrest _ (env.inStep_sync hst₁ false children (some id))
          (ihchildren _ hst₁ h₁ hchildren hFchildren (some id)) hrest hFrest p
      | none =>
        rw [sync_cons_none hid]
        exact ihrest _ hst₁ h₁ hrest hFrest p

/-- Rows and tombstones of what a step leaves. -/
theorem Buried.step {s' : MenuStore} (h : Buried s code F)
    (hrows : ∀ m ∈ s'.menus.rows, m.code ∉ F ∨ m ∈ s.menus.rows)
    (htomb : s.tombstones ⊆ s'.tombstones) : Buried s' code F where
  nonempty := h.nonempty
  tombstone := htomb h.tombstone
  self := h.self
  missing c hc := by
    rw [MenuTable.byCode_eq_none]
    rintro m hm rfl
    refine (hrows m hm).elim (fun hm => hm hc) fun hm => ?_
    exact MenuTable.byCode_eq_none.mp (h.missing _ hc) m hm rfl

end MenuEnv

/-- The move does not bring any of the codes back by hand, and is no reset. -/
def MenuMove.Spares (F : List Text) : MenuMove → Prop
  | .create m => m.code ∉ F
  | .update _ u => ∀ code ∈ u.code, code ∉ F
  | .delete _ _ => True
  | .assign _ _ => True
  | .start => True
  | .reset => False

namespace MenuStore

variable {s : MenuStore} {m : Menu} {id : ℕ} {u : MenuUpdate} {recorded : Bool}

/-- A row after an update is one from before, or what became of one. -/
theorem updateMenu_rows (hm : m ∈ (s.updateMenu id u).1.menus.rows) :
    m ∈ s.menus.rows ∨ ∃ m₀ ∈ s.menus.rows, m = u.apply s.menus.byId m₀ := by
  simp only [updateMenu] at hm
  cases hfind : s.menus.byId id with
  | none =>
    rw [hfind] at hm
    exact .inl hm
  | some m₀ =>
    rw [hfind] at hm
    refine (MenuTable.eq_or_mem_of_mem_put hm).symm.imp_right fun heq => ⟨m₀, ?_, heq⟩
    exact (MenuTable.byId_eq_some.mp hfind).1

/-- What a deletion does, if it does anything. -/
theorem delete_cases (s : MenuStore) (id : ℕ) (recorded : Bool) :
    s.delete id recorded = s ∨ s.delete id recorded = (s.deleteMenu id).1 ∨
      ∃ m, s.menus.byId id = some m ∧
        s.delete id recorded = (s.deleteMenu id).1.addMenuTombstone m.code := by
  simp only [delete]
  cases hfind : s.menus.byId id with
  | none => exact .inl rfl
  | some m =>
    obtain ⟨s', done⟩ := s.deleteMenu id
    cases done with
    | false => exact .inr (.inl rfl)
    | true =>
      by_cases h : m.isBuiltin = 1 ∧ recorded = true
      · exact .inr (.inr ⟨m, rfl, by simp [h]⟩)
      · exact .inr (.inl (by simp [h]))

@[simp] theorem addMenuTombstone_menus (code : Text) :
    (s.addMenuTombstone code).menus = s.menus := by
  rw [addMenuTombstone]
  split_ifs <;> rfl

@[simp] theorem addMenuTombstone_roleMenus (code : Text) :
    (s.addMenuTombstone code).roleMenus = s.roleMenus := by
  rw [addMenuTombstone]
  split_ifs <;> rfl

theorem subset_addMenuTombstone (code : Text) :
    s.tombstones ⊆ (s.addMenuTombstone code).tombstones := by
  intro c hc
  rw [addMenuTombstone]
  split_ifs
  · exact hc
  · exact List.mem_insert_of_mem hc

theorem delete_rows : (s.delete id recorded).menus.rows ⊆ s.menus.rows := by
  have hsub : (s.deleteMenu id).1.menus.rows ⊆ s.menus.rows := List.filter_subset_self _
  rcases s.delete_cases id recorded with heq | heq | ⟨m, -, heq⟩ <;> rw [heq]
  · exact List.Subset.refl _
  · exact hsub
  · rw [addMenuTombstone_menus]
    exact hsub

theorem delete_tombstones : s.tombstones ⊆ (s.delete id recorded).tombstones := by
  rcases s.delete_cases id recorded with heq | heq | ⟨m, -, heq⟩ <;> rw [heq]
  · exact List.Subset.refl _
  · exact List.Subset.refl _
  · exact subset_addMenuTombstone (s := (s.deleteMenu id).1) m.code

@[simp] theorem assignMenusToRole_menus (role : ℕ) (ids : List ℕ) :
    (s.assignMenusToRole role ids).1.menus = s.menus := by
  simp only [assignMenusToRole]
  split_ifs <;> rfl

@[simp] theorem assignMenusToRole_tombstones (role : ℕ) (ids : List ℕ) :
    (s.assignMenusToRole role ids).1.tombstones = s.tombstones := by
  simp only [assignMenusToRole]
  split_ifs <;> rfl

end MenuStore

namespace MenuEnv

open MenuData

variable {env : MenuEnv} {s : MenuStore} {m : Menu} {c code : Text} {id : ℕ} {F : List Text}

@[simp] theorem createMenu_tombstones : (env.createMenu s m).1.tombstones = s.tombstones := by
  simp only [createMenu]
  split_ifs <;> rfl

/-- A row after a creation is one from before, or the new one. -/
theorem create_rows {r : Menu} (hr : r ∈ (env.create s m).menus.rows) :
    r ∈ s.menus.rows ∨ r = env.newRow s m := by
  simp only [create] at hr
  split at hr
  · exact .inl hr
  · simp only [createMenu] at hr
    split_ifs at hr
    · simpa [MenuTable.insert] using hr
    · exact .inl hr

@[simp] theorem create_tombstones : (env.create s m).tombstones = s.tombstones := by
  simp only [create]
  split <;> simp

theorem mem_beneath_self {f : Forest MenuData} (h : code ∈ f.labels.map MenuData.code) :
    code ∈ beneath code f := by
  induction f with
  | nil => simp at h
  | cons d children rest ihchildren ihrest =>
    simp only [Forest.labels_cons, List.map_cons, List.map_append, List.mem_cons,
      List.mem_append] at h
    rw [beneath]
    split_ifs with hd
    · simp [hd]
    · refine List.mem_append.mpr ((h.resolve_left (Ne.symm hd)).imp ?_ ?_)
      · exact fun h => ihchildren h
      · exact fun h => ihrest h

/-- **One step** brings back nothing that is buried. -/
theorem buried_step (h : Buried s code F) (hF : ∀ c ∈ F, c = code ∨ c ∈ beneath code env.defaults)
    {v : MenuMove} (hv : v.Spares F) : Buried (env.step s v) code F := by
  cases v with
  | create m =>
    refine h.step (fun r hr => ?_) (by simp [step])
    refine (create_rows hr).symm.imp_left fun heq => ?_
    rw [heq]
    exact hv
  | update id u =>
    refine h.step (fun r hr => ?_) (by simp [step])
    rcases MenuStore.updateMenu_rows hr with hr | ⟨m₀, hm₀, rfl⟩
    · exact .inr hr
    · refine .inl ?_
      change u.code.getD m₀.code ∉ F
      cases hu : u.code with
      | none => exact fun hin => MenuTable.byCode_eq_none.mp (h.missing _ hin) m₀ hm₀ rfl
      | some c => exact hv c hu
  | delete id recorded =>
    exact h.step (fun r hr => .inr (MenuStore.delete_rows hr)) MenuStore.delete_tombstones
  | assign role ids => exact h.step (fun r hr => .inr (by simpa [step] using hr)) (by simp [step])
  | start =>
    have hdrop : Buried (env.dropObsolete s) code F := by
      refine h.step (fun r hr => .inr ?_) (by simp)
      rw [rows_dropObsolete] at hr
      exact (List.mem_filter.mp hr).1
    refine buried_sync (env.syncStart false s) (inStep_syncStart s) hdrop env.nodup ?_ none
    intro c hc hin
    rcases hF c hc with rfl | hc
    · exact mem_beneath_self hin
    · exact hc
  | reset => exact hv.elim

/-- **A built-in menu that was deleted stays deleted**, and so do those beneath it that went with
it, whatever starts and changes follow, until one of them is created by hand, a menu gets its code,
or the menus are reset. -/
theorem run_buried (env : MenuEnv) (hm : s.menus.byId id = some m) (hbuiltin : m.isBuiltin = 1)
    (hcode : m.code ≠ []) (hself : m.parentId ≠ some id)
    (hF : ∀ c ∈ F, c ∈ beneath m.code env.defaults ∧ (s.delete id true).menus.byCode c = none)
    {moves : List MenuMove} (hmoves : ∀ v ∈ moves, v.Spares (m.code :: F)) :
    ∀ c ∈ m.code :: F, (moves.foldl env.step (s.delete id true)).menus.byCode c = none := by
  obtain ⟨hmem, hid⟩ := MenuTable.byId_eq_some.mp hm
  have hdone : (s.deleteMenu id).2 = true :=
    List.any_eq_true.mpr ⟨m, hmem, by simp [hid, hself]⟩
  have hdelete : s.delete id true = (s.deleteMenu id).1.addMenuTombstone m.code := by
    cases h : s.deleteMenu id with
    | mk s' done =>
      obtain rfl : done = true := by rw [h] at hdone; exact hdone
      simp [MenuStore.delete, hm, h, hbuiltin]
  have hgone : (s.delete id true).menus.byCode m.code = none := by
    rw [MenuTable.byCode_eq_none]
    intro r hr hrcode
    obtain rfl := MenuTable.eq_of_code (MenuStore.delete_rows hr) hmem hrcode
    rw [hdelete, MenuStore.addMenuTombstone_menus] at hr
    simp [MenuStore.deleteMenu, MenuStore.removedWith, hid] at hr
  have hstart : Buried (s.delete id true) m.code (m.code :: F) :=
    { nonempty := hcode
      tombstone := by simp [hdelete, MenuStore.addMenuTombstone, hcode]
      self := List.mem_cons_self
      missing := List.forall_mem_cons.mpr ⟨hgone, fun c hc => (hF c hc).2⟩ }
  have hbeneath : ∀ c ∈ m.code :: F, c = m.code ∨ c ∈ beneath m.code env.defaults := by
    intro c hc
    exact (List.mem_cons.mp hc).imp_right fun hc => (hF c hc).1
  exact (Run.invariant (fun s => Buried s m.code (m.code :: F)) hstart
    fun s hs v hv => buried_step hs hbeneath (hmoves v hv)).missing

/-- The menu of discoveries as it is installed. -/
def discoveryMenu : Menu where
  id := 5
  name := of "探索"
  code := of "Discovery"
  path := some []
  icon := some (of "lucide:compass")
  sortOrder := 3
  permissionCode := some (of "discovery:view")
  isBuiltin := 1

/-- Two starts, and a new menu between them. -/
def laterMoves : List MenuMove :=
  [.start, .create { discoveryMenu with code := of "Mine" }, .start]

/-- Discoveries are deleted, and their children with them: what follows does not bring them back. -/
theorem run_buried_discovery :
    (laterMoves.foldl MenuEnv.wolf.step (installedMenus.delete 5 true)).menus.byCode
        (of "Discovery") = none ∧
      (laterMoves.foldl MenuEnv.wolf.step (installedMenus.delete 5 true)).menus.byCode
        (of "Bangumi") = none := by
  have hnew : of "Mine" ∉ [of "Discovery", of "Bangumi"] := by decide
  have hspares : ∀ v ∈ laterMoves, v.Spares [of "Discovery", of "Bangumi"] :=
    List.forall_mem_cons.mpr
      ⟨trivial, List.forall_mem_cons.mpr ⟨hnew, by simp [MenuMove.Spares]⟩⟩
  have hgone : ∀ c ∈ [of "Discovery", of "Bangumi"],
      (laterMoves.foldl MenuEnv.wolf.step (installedMenus.delete 5 true)).menus.byCode c = none :=
    run_buried (m := discoveryMenu) MenuEnv.wolf (by decide +kernel) rfl (by decide) (by decide)
      (F := [of "Bangumi"]) (by decide +kernel) hspares
  exact ⟨hgone _ (by simp), hgone _ (by simp)⟩

end MenuEnv

/-! ## The menus of the roles -/

/-- No role has a menu that is not there. -/
def MenuStore.Linked (s : MenuStore) : Prop := ∀ l ∈ s.roleMenus, l.2 ∈ s.menus.rows.map Menu.id

namespace MenuStore

variable {s : MenuStore} {m : Menu} {id : ℕ} {u : MenuUpdate} {recorded : Bool}

/-- Rows that go, go with their links. -/
theorem Linked.deleteMenu (h : s.Linked) (id : ℕ) : (s.deleteMenu id).1.Linked := by
  intro l hl
  obtain ⟨hl, hstays⟩ := List.mem_filter.mp hl
  obtain ⟨m, hm, hid⟩ := List.mem_map.mp (h l hl)
  refine List.mem_map.mpr ⟨m, List.mem_filter.mpr ⟨hm, ?_⟩, hid⟩
  simp only [Bool.not_eq_true', Bool.or_eq_false_iff, decide_eq_false_iff_not, ← hid,
    List.any_eq_false, Bool.and_eq_true, decide_eq_true_eq, not_and] at hstays
  simp [removedWith, hstays.1, hstays.2 m hm rfl]

theorem Linked.delete (h : s.Linked) (id : ℕ) (recorded : Bool) :
    (s.delete id recorded).Linked := by
  rcases s.delete_cases id recorded with heq | heq | ⟨m, -, heq⟩ <;> rw [heq]
  · exact h
  · exact h.deleteMenu id
  · simpa [Linked] using h.deleteMenu id

/-- A step that keeps the ids and adds no links. -/
theorem Linked.step {s' : MenuStore} (h : s.Linked)
    (hids : s.menus.rows.map Menu.id ⊆ s'.menus.rows.map Menu.id)
    (hlinks : s'.roleMenus = s.roleMenus) : s'.Linked := fun l hl => hids (h l (hlinks ▸ hl))

theorem updateMenu_ids (id : ℕ) (u : MenuUpdate) :
    (s.updateMenu id u).1.menus.rows.map Menu.id = s.menus.rows.map Menu.id := by
  simp only [updateMenu]
  split
  · rfl
  · exact MenuTable.ids_put _ _

/-- A role gets menus that are there. -/
theorem Linked.assign (h : s.Linked) (role : ℕ) (ids : List ℕ) :
    (s.assignMenusToRole role ids).1.Linked := by
  intro l hl
  simp only [assignMenusToRole] at hl ⊢
  split_ifs at hl ⊢
  · rcases List.mem_append.mp hl with hl | hl
    · exact h l (List.mem_filter.mp hl).1
    · obtain ⟨m, hm, rfl⟩ := List.mem_map.mp hl
      exact List.mem_map_of_mem (List.mem_filter.mp hm).1
  · exact h l hl

end MenuStore

namespace MenuEnv

variable {env : MenuEnv} {s : MenuStore} {m : Menu}

theorem create_roleMenus (env : MenuEnv) (s : MenuStore) (m : Menu) :
    (env.create s m).roleMenus = s.roleMenus := by
  simp only [create]
  split
  · rfl
  · simp only [createMenu]
    split_ifs <;> rfl

theorem create_ids (env : MenuEnv) (s : MenuStore) (m : Menu) :
    s.menus.rows.map Menu.id ⊆ (env.create s m).menus.rows.map Menu.id := by
  simp only [create]
  split
  · exact List.Subset.refl _
  · simp only [createMenu]
    split_ifs
    · simp [MenuTable.insert]
    · exact List.Subset.refl _

theorem linked_sync (st : SyncState) (h : st.store.Linked) (force : Bool) (f : Forest MenuData)
    (p : Option ℕ) : (env.sync force f p st).store.Linked := by
  refine h.step (fun id hid => ?_) ?_
  · obtain ⟨m, hm, rfl⟩ := List.mem_map.mp hid
    obtain ⟨m', hm', hid⟩ := env.sync_keeps force
      (MenuTable.byCode_eq_some.mpr ⟨hm, rfl⟩) f p
    exact List.mem_map.mpr ⟨m', (MenuTable.byCode_eq_some.mp hm').1, hid⟩
  · refine sync_induction (R := fun st st' => st'.store.roleMenus = st.store.roleMenus)
      (fun _ => rfl) (fun _ _ _ h h' => h'.trans h) (fun d _ p st => ?_) p st
    have hstep := env.entryStep force d p st
    generalize (env.syncEntry force d p st).1 = st' at hstep ⊢
    generalize (env.syncEntry force d p st).2 = id at hstep
    cases hstep with
    | refresh found menus stored read links => exact links
    | leave missing buried => rfl
    | create missing free menus stored read links => exact links

theorem linked_init (h : s.Linked) (force : Bool) : (env.initRbacMenus force s).1.Linked := by
  have hdrop : (env.dropObsolete s).Linked := by
    rw [dropObsolete]
    exact Run.invariant MenuStore.Linked h fun s hs m _ => hs.deleteMenu m.id
  exact linked_sync (env.syncStart force s) hdrop force env.defaults none

/-- **One step** leaves no role with a menu that is not there. -/
theorem linked_step (h : s.Linked) (v : MenuMove) : (env.step s v).Linked := by
  cases v with
  | create m => exact h.step (create_ids env s m) (create_roleMenus env s m)
  | update id u =>
    exact h.step (by rw [step, MenuStore.updateMenu_ids]; exact List.Subset.refl _) (by simp [step])
  | delete id recorded => exact h.delete id recorded
  | assign role ids => exact h.assign role ids
  | start => exact linked_init h false
  | reset => exact linked_init (s := s.clearAllMenuTombstones) h true

/-- **No role ever has a menu that is not there**, although the database gives the ids of deleted
menus again: so no role has a menu that was just created. -/
theorem run_linked (env : MenuEnv) (h : s.Linked) (moves : List MenuMove) (m : Menu) :
    (moves.foldl env.step s).Linked ∧
      ∀ l ∈ (env.create (moves.foldl env.step s) m).roleMenus,
        l.2 ≠ (env.newRow (moves.foldl env.step s) m).id := by
  have hlinked : (moves.foldl env.step s).Linked :=
    Run.invariant MenuStore.Linked h fun s hs v _ => linked_step hs v
  refine ⟨hlinked, fun l hl hid => ?_⟩
  rw [create_roleMenus] at hl
  obtain ⟨r, hr, hrid⟩ := List.mem_map.mp (hlinked l hl)
  exact env.fresh _ r hr (hrid.trans hid)

/-- A menu that a role had is deleted, and another one gets its id. -/
theorem run_linked_reused :
    (([.delete 64 true] : List MenuMove).foldl MenuEnv.wolf.step
        { installedMenus with roles := [1], roleMenus := [(1, 64), (1, 3)] }).Linked ∧
      ∀ l ∈ (MenuEnv.wolf.create (([.delete 64 true] : List MenuMove).foldl MenuEnv.wolf.step
          { installedMenus with roles := [1], roleMenus := [(1, 64), (1, 3)] })
          discoveryMenu).roleMenus,
        l.2 ≠ (MenuEnv.wolf.newRow (([.delete 64 true] : List MenuMove).foldl MenuEnv.wolf.step
          { installedMenus with roles := [1], roleMenus := [(1, 64), (1, 3)] }) discoveryMenu).id :=
  run_linked MenuEnv.wolf (by rw [MenuStore.Linked]; decide +kernel) _ _

end MenuEnv

end WolfNas
