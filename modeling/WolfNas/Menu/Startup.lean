import WolfNas.Menu.Rows

/-!
# What a start does to the menus

A start handles every built-in menu once, and looks at the others only to delete those that are
obsolete.  What it does is told code by code: an entry changes what is found under its own code and
no other.

## Main definitions

* `MenuEnv.Settled` — the store has what a start would bring about.
* `MenuEnv.swept` — the row is obsolete, or lies under one that is.
* `MenuEnv.Restored` — the entries have the rows that were delivered.

## Main results

* `MenuEnv.entryStep` — what is done for an entry.
* `MenuEnv.sync_frame` — what lies under other codes stays.
* `MenuEnv.initRbacMenus_idem` — a start after a start changes nothing.
* `MenuEnv.initRbacMenus_leaves` — what a start leaves.
* `MenuEnv.resetMenus_restores` — what a reset brings back.
-/

namespace WolfNas

open Text

/-! ## One operation -/

namespace MenuStore

variable {s : MenuStore} {m : Menu} {id : ℕ} {u : MenuUpdate} {c code : Text}

@[simp] theorem updateMenu_tombstones : (s.updateMenu id u).1.tombstones = s.tombstones := by
  simp only [updateMenu]
  split <;> rfl

@[simp] theorem updateMenu_roleMenus : (s.updateMenu id u).1.roleMenus = s.roleMenus := by
  simp only [updateMenu]
  split <;> rfl

@[simp] theorem removeMenuTombstone_menus : (s.removeMenuTombstone code).menus = s.menus := rfl

@[simp] theorem mem_removeMenuTombstone :
    c ∈ (s.removeMenuTombstone code).tombstones ↔ c ∈ s.tombstones ∧ c ≠ code := by
  simp [removeMenuTombstone]

@[simp] theorem mem_getMenuTombstones : c ∈ s.getMenuTombstones ↔ c ∈ s.tombstones ∧ c ≠ [] := by
  simp [getMenuTombstones]

/-- An update that leaves the code changes what is found under it, and nothing else. -/
theorem byCode_updateMenu (hm : s.menus.byCode code = some m) (hu : u.code = none) (c : Text) :
    (s.updateMenu m.id u).1.menus.byCode c =
      if c = code then some (u.apply s.menus.byId m) else s.menus.byCode c := by
  obtain ⟨hmem, rfl⟩ := MenuTable.byCode_eq_some.mp hm
  have hid : s.menus.byId m.id = some m := MenuTable.byId_eq_some.mpr ⟨hmem, rfl⟩
  have hcode : (u.apply s.menus.byId m).code = m.code := by
    simp [MenuUpdate.apply, hu]
  have hstore : (s.updateMenu m.id u).1.menus = s.menus.put (u.apply s.menus.byId m) := by
    simp only [updateMenu, hid]
  have hsame : (u.apply s.menus.byId m).id = m.id := rfl
  rw [hstore]
  exact MenuTable.byCode_put hmem hsame hcode c

end MenuStore

namespace MenuEnv

variable {env : MenuEnv} {s : MenuStore} {m : Menu} {c : Text} {force : Bool} {d : MenuData}
  {p : Option ℕ} {st : SyncState} {f : Forest MenuData}

/-- A new code is created with a new id. -/
theorem createMenu_of_none (env : MenuEnv) (h : s.menus.byCode m.code = none) :
    ∃ store, env.createMenu s m = (store, some (env.newRow s m)) ∧
      (∀ c, store.menus.byCode c =
        if c = m.code then some (env.newRow s m) else s.menus.byCode c) ∧
      store.tombstones = s.tombstones ∧ store.roleMenus = s.roleMenus := by
  have hcode := MenuTable.byCode_eq_none.mp h
  have hfound := MenuTable.byCode_insert (m := env.newRow s m) (env.fresh s.menus) hcode
  exact ⟨_, dif_pos hcode, hfound, rfl, rfl⟩

/-! ## One entry -/

/-- The row that an entry leaves where there was one. -/
def refreshed (force : Bool) (d : MenuData) (p : Option ℕ) (s : MenuStore) (m : Menu) : Menu :=
  (if force then d.forced p else d.technical m).apply s.menus.byId m

theorem technical_eq_empty :
    d.technical m = {} ↔ m.path = d.path ∧ m.component = d.component ∧ m.isBuiltin = 1 := by
  simp only [MenuData.technical, MenuUpdate.mk.injEq, true_and]
  split_ifs <;> simp_all

/-- What is done for an entry: its row is written over, it is left out with its children, or its
row is created. -/
inductive EntryStep (env : MenuEnv) (force : Bool) (d : MenuData) (p : Option ℕ) (st : SyncState) :
    SyncState → Option ℕ → Prop
  | refresh {m : Menu} {st' : SyncState} (found : st.store.menus.byCode d.code = some m)
      (menus : ∀ c, st'.store.menus.byCode c =
        if c = d.code then some (refreshed force d p st.store m) else st.store.menus.byCode c)
      (stored : ∀ c, c ∈ st'.store.tombstones ↔
        c ∈ st.store.tombstones ∧ (c = d.code → d.code ∉ st.tombstones))
      (read : ∀ c, c ∈ st'.tombstones ↔ c ∈ st.tombstones ∧ c ≠ d.code)
      (links : st'.store.roleMenus = st.store.roleMenus) :
      EntryStep env force d p st st' (some m.id)
  | leave (missing : st.store.menus.byCode d.code = none) (buried : d.code ∈ st.tombstones) :
      EntryStep env force d p st st none
  | create {st' : SyncState} (missing : st.store.menus.byCode d.code = none)
      (free : d.code ∉ st.tombstones)
      (menus : ∀ c, st'.store.menus.byCode c =
        if c = d.code then some (env.newRow st.store (d.toMenu p))
        else st.store.menus.byCode c)
      (stored : st'.store.tombstones = st.store.tombstones) (read : st'.tombstones = st.tombstones)
      (links : st'.store.roleMenus = st.store.roleMenus) :
      EntryStep env force d p st st' (some (env.freshId st.store.menus))

/-- **An entry is handled in one of three ways.** -/
theorem entryStep (env : MenuEnv) (force : Bool) (d : MenuData) (p : Option ℕ) (st : SyncState) :
    EntryStep env force d p st (env.syncEntry force d p st).1 (env.syncEntry force d p st).2 := by
  cases hfind : st.store.menus.byCode d.code with
  | some m =>
    -- the tombstone goes first, and then the row is written over if there is anything to write
    let st₁ : SyncState := if d.code ∈ st.tombstones then
      { st with
          store := st.store.removeMenuTombstone d.code
          tombstones := st.tombstones.filter fun c => c ≠ d.code }
      else st
    let u := if force then d.forced p else d.technical m
    have hcode : u.code = none := by
      simp only [u]
      split <;> rfl
    have hmenus : st₁.store.menus = st.store.menus := by
      simp only [st₁]
      split <;> rfl
    have hlinks : st₁.store.roleMenus = st.store.roleMenus := by
      simp only [st₁]
      split <;> rfl
    have hstored : ∀ c, c ∈ st₁.store.tombstones ↔
        c ∈ st.store.tombstones ∧ (c = d.code → d.code ∉ st.tombstones) := by
      intro c
      by_cases hburied : d.code ∈ st.tombstones <;> simp [st₁, hburied]
    have hread : ∀ c, c ∈ st₁.tombstones ↔ c ∈ st.tombstones ∧ c ≠ d.code := by
      intro c
      by_cases hburied : d.code ∈ st.tombstones
      · simp [st₁, hburied]
      · simp only [st₁, hburied, if_false]
        exact ⟨fun hc => ⟨hc, fun heq => hburied (heq ▸ hc)⟩, And.left⟩
    have heq : env.syncEntry force d p st = (if u = {} then st₁ else
        { st₁ with store := (st₁.store.updateMenu m.id u).1, updated := st₁.updated + 1 },
        some m.id) := by
      simp only [syncEntry, hfind]
      rfl
    rw [heq]
    by_cases hu : u = {}
    · rw [if_pos hu]
      refine .refresh hfind (fun c => ?_) hstored hread hlinks
      have hsame : refreshed force d p st.store m = m := by
        change u.apply st.store.menus.byId m = m
        rw [hu]
        rfl
      rw [hmenus, hsame]
      split_ifs with hc
      · rw [hc, hfind]
      · rfl
    · rw [if_neg hu]
      refine .refresh hfind (fun c => ?_) (by simpa using hstored) hread (by simpa using hlinks)
      have hupdate := MenuStore.byCode_updateMenu (s := st₁.store) (hmenus ▸ hfind) hcode c
      rw [hmenus] at hupdate
      exact hupdate
  | none =>
    by_cases hburied : d.code ∈ st.tombstones
    · have heq : env.syncEntry force d p st = (st, none) := by
        simp only [syncEntry, hfind, hburied, if_true]
      rw [heq]
      exact .leave hfind hburied
    · obtain ⟨store, hcreate, hcodes, htomb, hlinks⟩ :=
        env.createMenu_of_none (m := d.toMenu p) hfind
      have heq : env.syncEntry force d p st =
          ({ st with store := store, created := st.created + 1 },
          some (env.freshId st.store.menus)) := by
        simp only [syncEntry, hfind, hburied, if_false, hcreate]
        rfl
      rw [heq]
      exact .create hfind hburied hcodes htomb rfl hlinks

/-- What is found under another code stays. -/
theorem EntryStep.byCode_of_ne {st' : SyncState} {id : Option ℕ}
    (h : EntryStep env force d p st st' id) (hc : c ≠ d.code) :
    st'.store.menus.byCode c = st.store.menus.byCode c := by
  cases h with
  | refresh found menus stored read links => rw [menus, if_neg hc]
  | leave missing buried => rfl
  | create missing free menus stored read links => rw [menus, if_neg hc]

/-- A tombstone of another code stays. -/
theorem EntryStep.tombstones_of_ne {st' : SyncState} {id : Option ℕ}
    (h : EntryStep env force d p st st' id) (hc : c ≠ d.code) :
    (c ∈ st'.store.tombstones ↔ c ∈ st.store.tombstones) ∧
      (c ∈ st'.tombstones ↔ c ∈ st.tombstones) := by
  cases h with
  | refresh found menus stored read links => simp [stored, read, hc]
  | leave missing buried => simp
  | create missing free menus stored read links => simp [stored, read]

/-- A row stays under its code, with its id. -/
theorem EntryStep.keeps {st' : SyncState} {id : Option ℕ} (h : EntryStep env force d p st st' id)
    (hm : st.store.menus.byCode c = some m) :
    ∃ m', st'.store.menus.byCode c = some m' ∧ m'.id = m.id := by
  by_cases hc : c = d.code
  · subst hc
    cases h with
    | refresh found menus stored read links =>
      obtain rfl := Option.some.inj (found.symm.trans hm)
      exact ⟨_, (menus _).trans (if_pos rfl), rfl⟩
    | leave missing buried => exact absurd (missing.symm.trans hm) (by simp)
    | create missing free menus stored read links =>
      exact absurd (missing.symm.trans hm) (by simp)
  · exact ⟨m, (h.byCode_of_ne hc).trans hm, rfl⟩

/-! ## All entries -/

theorem sync_cons_some {children rest : Forest MenuData} {id : ℕ}
    (h : (env.syncEntry force d p st).2 = some id) :
    env.sync force (.cons d children rest) p st = env.sync force rest p
      (env.sync force children (some id) (env.syncEntry force d p st).1) := by
  rw [sync, ← Prod.eta (env.syncEntry force d p st), h]

theorem sync_cons_none {children rest : Forest MenuData}
    (h : (env.syncEntry force d p st).2 = none) :
    env.sync force (.cons d children rest) p st =
      env.sync force rest p (env.syncEntry force d p st).1 := by
  rw [sync, ← Prod.eta (env.syncEntry force d p st), h]

/-- A relation that can be chained holds of what all entries do where it holds of what each does. -/
theorem sync_induction {R : SyncState → SyncState → Prop} (hrefl : ∀ st, R st st)
    (htrans : ∀ st st' st'', R st st' → R st' st'' → R st st'')
    (hentry : ∀ d ∈ f.labels, ∀ p st, R st (env.syncEntry force d p st).1) (p : Option ℕ)
    (st : SyncState) : R st (env.sync force f p st) := by
  induction f generalizing p st with
  | nil => exact hrefl st
  | cons d children rest ihchildren ihrest =>
    have hd := hentry d (by simp) p st
    have hchildren := ihchildren fun d hd => hentry d (by simp [hd])
    have hrest := ihrest fun d hd => hentry d (by simp [hd])
    cases hid : (env.syncEntry force d p st).2 with
    | some id =>
      rw [sync_cons_some hid]
      exact htrans _ _ _ (htrans _ _ _ hd (hchildren _ _)) (hrest _ _)
    | none =>
      rw [sync_cons_none hid]
      exact htrans _ _ _ hd (hrest _ _)

/-- **What lies under other codes stays.** -/
theorem sync_frame (env : MenuEnv) (force : Bool) (hc : c ∉ f.labels.map MenuData.code)
    (p : Option ℕ) (st : SyncState) :
    (env.sync force f p st).store.menus.byCode c = st.store.menus.byCode c ∧
      (c ∈ (env.sync force f p st).store.tombstones ↔ c ∈ st.store.tombstones) ∧
      (c ∈ (env.sync force f p st).tombstones ↔ c ∈ st.tombstones) := by
  refine sync_induction (R := fun st st' =>
    st'.store.menus.byCode c = st.store.menus.byCode c ∧
      (c ∈ st'.store.tombstones ↔ c ∈ st.store.tombstones) ∧
      (c ∈ st'.tombstones ↔ c ∈ st.tombstones)) (fun _ => ⟨rfl, .rfl, .rfl⟩) ?_ ?_ p st
  · rintro st st' st'' ⟨hmenus, hstored, hread⟩ ⟨hmenus', hstored', hread'⟩
    exact ⟨hmenus'.trans hmenus, hstored'.trans hstored, hread'.trans hread⟩
  · intro d hd p st
    have hne : c ≠ d.code := fun heq => hc (List.mem_map.mpr ⟨d, hd, heq.symm⟩)
    have hstep := env.entryStep force d p st
    exact ⟨hstep.byCode_of_ne hne, hstep.tombstones_of_ne hne⟩

/-- Rows stay under their codes, with their ids. -/
theorem sync_keeps (env : MenuEnv) (force : Bool) (hm : st.store.menus.byCode c = some m)
    (f : Forest MenuData) (p : Option ℕ) :
    ∃ m', (env.sync force f p st).store.menus.byCode c = some m' ∧ m'.id = m.id := by
  refine sync_induction (R := fun st st' => ∀ m, st.store.menus.byCode c = some m →
    ∃ m', st'.store.menus.byCode c = some m' ∧ m'.id = m.id) (fun _ m hm => ⟨m, hm, rfl⟩) ?_ ?_
    p st m hm
  · intro st st' st'' h h' m hm
    obtain ⟨m', hm', hid⟩ := h m hm
    obtain ⟨m'', hm'', hid'⟩ := h' m' hm'
    exact ⟨m'', hm'', hid'.trans hid⟩
  · intro d _ p st m hm
    exact (env.entryStep force d p st).keeps hm

/-- The tombstones that were read are those that are stored. -/
def InStep (st : SyncState) : Prop :=
  ∀ c, c ∈ st.tombstones ↔ c ∈ st.store.getMenuTombstones

theorem inStep_entry (h : InStep st) (force : Bool) (d : MenuData) (p : Option ℕ) :
    InStep (env.syncEntry force d p st).1 := by
  intro c
  have hc := h c
  rw [MenuStore.mem_getMenuTombstones] at hc
  rw [MenuStore.mem_getMenuTombstones]
  have hstep := env.entryStep force d p st
  generalize (env.syncEntry force d p st).1 = st' at hstep ⊢
  generalize (env.syncEntry force d p st).2 = id at hstep
  cases hstep with
  | refresh found menus stored read links =>
    rw [stored, read, hc]
    by_cases hcd : c = d.code
    · subst hcd
      simp only [hc]
      tauto
    · simp [hcd]
  | leave missing buried => exact hc
  | create missing free menus stored read links => rw [stored, read, hc]

theorem inStep_sync (env : MenuEnv) (h : InStep st) (force : Bool) (f : Forest MenuData)
    (p : Option ℕ) :
    InStep (env.sync force f p st) :=
  sync_induction (R := fun st st' => InStep st → InStep st') (fun _ h => h)
    (fun _ _ _ h h' hst => h' (h hst)) (fun d _ p _ h => inStep_entry h force d p) p st h

/-! ## A start after a start -/

/-- The store has what a start would bring about: each entry has its row, as the web interface
depends on it, or is left out with its children. -/
def Settled (s : MenuStore) : Forest MenuData → Prop
  | .nil => True
  | .cons d children rest =>
    ((∃ m, s.menus.byCode d.code = some m ∧ d.code ∉ s.getMenuTombstones ∧ d.technical m = {} ∧
        Settled s children) ∨
      s.menus.byCode d.code = none ∧ d.code ∈ s.getMenuTombstones) ∧ Settled s rest

/-- Only the codes of the entries matter. -/
theorem Settled.congr {s' : MenuStore}
    (hmenus : ∀ c ∈ f.labels.map MenuData.code, s'.menus.byCode c = s.menus.byCode c)
    (htomb : ∀ c ∈ f.labels.map MenuData.code,
      (c ∈ s'.getMenuTombstones ↔ c ∈ s.getMenuTombstones))
    (h : Settled s f) : Settled s' f := by
  induction f with
  | nil => trivial
  | cons d children rest ihchildren ihrest =>
    simp only [Forest.labels_cons, List.map_cons, List.map_append, List.mem_cons,
      List.mem_append] at hmenus htomb
    have hd := hmenus d.code (.inl rfl)
    have ht := htomb d.code (.inl rfl)
    refine ⟨?_, ihrest (fun c hc => hmenus c (.inr (.inr hc)))
      (fun c hc => htomb c (.inr (.inr hc))) h.2⟩
    rw [hd, ht]
    refine h.1.imp_left ?_
    rintro ⟨m, hm, hfree, htech, hchildren⟩
    exact ⟨m, hm, hfree, htech, ihchildren (fun c hc => hmenus c (.inr (.inl hc)))
      (fun c hc => htomb c (.inr (.inl hc))) hchildren⟩

/-- Where everything is settled there is nothing to do. -/
theorem sync_of_settled (env : MenuEnv) (hst : InStep st) (h : Settled st.store f) (p : Option ℕ) :
    env.sync false f p st = st := by
  induction f generalizing p with
  | nil => rfl
  | cons d children rest ihchildren ihrest =>
    obtain ⟨⟨m, hm, hfree, htech, hchildren⟩ | ⟨hm, hburied⟩, hrest⟩ := h
    · have hfree : d.code ∉ st.tombstones := fun hc => hfree ((hst d.code).mp hc)
      have hentry : env.syncEntry false d p st = (st, some m.id) := by
        simp [syncEntry, hm, hfree, htech]
      rw [sync_cons_some (by rw [hentry]), hentry, ihchildren hchildren, ihrest hrest]
    · have hburied : d.code ∈ st.tombstones := (hst d.code).mpr hburied
      have hentry : env.syncEntry false d p st = (st, none) := by
        simp [syncEntry, hm, hburied]
      rw [sync_cons_none (by rw [hentry]), hentry, ihrest hrest]

/-- What an entry leaves is as the web interface depends on it. -/
theorem technical_refreshed (s : MenuStore) (m : Menu) :
    d.technical (refreshed false d p s m) = {} := by
  rw [technical_eq_empty]
  simp only [refreshed, MenuData.technical, MenuUpdate.apply, Bool.false_eq_true, if_false]
  refine ⟨?_, ?_, ?_⟩ <;> split_ifs <;> simp_all

/-- An entry that is not left out has its row, and no tombstone. -/
theorem EntryStep.done {st' : SyncState} {id : ℕ} (h : EntryStep env false d p st st' (some id)) :
    ∃ m, st'.store.menus.byCode d.code = some m ∧ d.code ∉ st'.tombstones ∧ d.technical m = {} := by
  cases h with
  | @refresh m _ found menus stored read links =>
    exact ⟨_, (menus _).trans (if_pos rfl), by simp [read], technical_refreshed _ m⟩
  | create missing free menus stored read links =>
    refine ⟨_, (menus _).trans (if_pos rfl), read ▸ free, ?_⟩
    exact technical_eq_empty.mpr ⟨rfl, rfl, rfl⟩

/-- **What a start brings about.** -/
theorem settled_sync (hst : InStep st) (hf : (f.labels.map MenuData.code).Nodup) (p : Option ℕ) :
    Settled (env.sync false f p st).store f := by
  induction f generalizing p st with
  | nil => trivial
  | cons d children rest ihchildren ihrest =>
    simp only [Forest.labels_cons, List.map_cons, List.map_append, List.nodup_cons,
      List.nodup_append, List.mem_append, not_or] at hf
    obtain ⟨⟨hdchildren, hdrest⟩, hchildren, hrest, hapart⟩ := hf
    have hstep := env.entryStep false d p st
    have hst₁ : InStep (env.syncEntry false d p st).1 := inStep_entry hst false d p
    cases hid : (env.syncEntry false d p st).2 with
    | some id =>
      rw [sync_cons_some hid]
      rw [hid] at hstep
      obtain ⟨m, hm, hfree, htech⟩ := hstep.done
      generalize (env.syncEntry false d p st).1 = st₁ at hst₁ hm hfree
      have hst₂ := env.inStep_sync hst₁ false children (some id)
      have hst₃ := env.inStep_sync hst₂ false rest p
      -- the children's codes, and the entry's own, are not those of the other entries
      have hback : ∀ c ∈ children.labels.map MenuData.code, c ∉ rest.labels.map MenuData.code :=
        fun c hc hc' => hapart c hc c hc' rfl
      have hown := env.sync_frame false hdchildren (some id) st₁
      have hown' := env.sync_frame false hdrest p
        (env.sync false children (some id) st₁)
      refine ⟨.inl ⟨m, hown'.1.trans (hown.1.trans hm), ?_, htech, ?_⟩, ihrest hst₂ hrest p⟩
      · rw [← hst₃ d.code, hown'.2.2, hown.2.2]
        exact hfree
      · refine Settled.congr (fun c hc => (env.sync_frame false (hback c hc) p _).1)
          (fun c hc => ?_) (ihchildren hst₁ hchildren (some id))
        rw [← hst₃ c, ← hst₂ c]
        exact (env.sync_frame false (hback c hc) p _).2.2
    | none =>
      rw [sync_cons_none hid]
      rw [hid] at hstep
      generalize (env.syncEntry false d p st).1 = st₁ at hstep hst₁ ⊢
      cases hstep with
      | leave missing buried =>
        have hown := env.sync_frame false hdrest p st
        refine ⟨.inr ⟨hown.1.trans missing, ?_⟩, ihrest hst hrest p⟩
        rw [← env.inStep_sync hst false rest p d.code, hown.2.2]
        exact buried

/-! ## Obsolete menus -/

/-- The row is obsolete, or lies under one that is. -/
def swept (env : MenuEnv) (s : MenuStore) (m : Menu) : Bool :=
  s.menus.rows.any fun o => env.obsolete o && MenuStore.removedWith o.id m

theorem rows_foldl_deleteMenu (l : List Menu) (s : MenuStore) :
    (l.foldl (fun s m => (s.deleteMenu m.id).1) s).menus.rows =
      s.menus.rows.filter fun m => !l.any fun o => MenuStore.removedWith o.id m := by
  induction l generalizing s with
  | nil => simp
  | cons o l ih =>
    rw [List.foldl_cons, ih]
    simp only [MenuStore.deleteMenu, MenuTable.remove, List.filter_filter, List.any_cons,
      Bool.not_or, Bool.and_comm]

theorem tombstones_foldl_deleteMenu (l : List Menu) (s : MenuStore) :
    (l.foldl (fun s m => (s.deleteMenu m.id).1) s).tombstones = s.tombstones := by
  induction l generalizing s with
  | nil => rfl
  | cons o l ih => exact ih _

@[simp] theorem dropObsolete_tombstones : (env.dropObsolete s).tombstones = s.tombstones :=
  tombstones_foldl_deleteMenu _ s

/-- **What is swept away**, in whatever order the menus are deleted. -/
theorem rows_dropObsolete :
    (env.dropObsolete s).menus.rows = s.menus.rows.filter fun m => !env.swept s m := by
  rw [dropObsolete, rows_foldl_deleteMenu]
  refine List.filter_congr fun m _ => ?_
  congr 1
  rw [Bool.eq_iff_iff, List.any_eq_true, swept, List.any_eq_true]
  simp [MenuStore.getAllMenus, bySortOrder, and_assoc]

theorem byCode_dropObsolete :
    (env.dropObsolete s).menus.byCode c = some m ↔
      s.menus.byCode c = some m ∧ env.swept s m = false := by
  rw [MenuTable.byCode_eq_some, MenuTable.byCode_eq_some, rows_dropObsolete]
  simp [and_right_comm]

/-- Where nothing is obsolete nothing is deleted. -/
theorem dropObsolete_of_none (h : ∀ m ∈ s.menus.rows, env.obsolete m = false) :
    env.dropObsolete s = s := by
  have hnone : s.getAllMenus.filter env.obsolete = [] := by
    simpa [List.filter_eq_nil_iff, MenuStore.getAllMenus, bySortOrder] using h
  simp [dropObsolete, hnone]

/-- A start leaves nothing obsolete. -/
theorem obsolete_initRbacMenus (force : Bool) (s : MenuStore) :
    ∀ m ∈ (env.initRbacMenus force s).1.menus.rows, env.obsolete m = false := by
  intro m hm
  have hfind := MenuTable.byCode_eq_some.mpr ⟨hm, rfl⟩
  by_cases hc : m.code ∈ env.defaultCodes
  · simp [obsolete, hc]
  · rw [initRbacMenus, (env.sync_frame force hc none _).1, syncStart, byCode_dropObsolete] at hfind
    have hmem := (MenuTable.byCode_eq_some.mp hfind.1).1
    rw [Bool.eq_false_iff]
    intro hobs
    have hself : env.swept s m = true :=
      List.any_eq_true.mpr ⟨m, hmem, by simp [hobs, MenuStore.removedWith]⟩
    simp [hself] at hfind

theorem inStep_syncStart (s : MenuStore) : InStep (env.syncStart false s) := by
  intro c
  simp [syncStart]

/-- Where nothing is obsolete and everything is settled, a start has nothing to do. -/
theorem initRbacMenus_of_settled (hobs : ∀ m ∈ s.menus.rows, env.obsolete m = false)
    (hsettled : Settled s env.defaults) : env.initRbacMenus false s = (s, 0) := by
  have hstore : (env.syncStart false s).store = s := dropObsolete_of_none hobs
  have hsync := env.sync_of_settled (inStep_syncStart s) (hstore ▸ hsettled) none
  simp only [initRbacMenus, hsync, hstore]
  rfl

/-- **A start after a start changes nothing**, and says that it created and updated nothing. -/
theorem initRbacMenus_idem (env : MenuEnv) (s : MenuStore) :
    env.initRbacMenus false (env.initRbacMenus false s).1 = ((env.initRbacMenus false s).1, 0) :=
  initRbacMenus_of_settled (obsolete_initRbacMenus false s)
    (settled_sync (inStep_syncStart s) env.nodup none)

/-! ## What a start leaves -/

/-- What a user may set of a menu: everything but what the web interface depends on. -/
def custom (m : Menu) : Menu := { m with path := none, component := none, isBuiltin := 0 }

theorem custom_refreshed (s : MenuStore) (m : Menu) :
    custom (refreshed false d p s m) = custom m := by
  simp [refreshed, custom, MenuData.technical, MenuUpdate.apply, MenuUpdate.level]

/-- A row that is there is written over only in what the web interface depends on. -/
theorem sync_custom (st : SyncState) (hm : st.store.menus.byCode c = some m) (f : Forest MenuData)
    (p : Option ℕ) :
    ((env.sync false f p st).store.menus.byCode c).map custom = some (custom m) := by
  have hcustom : (st.store.menus.byCode c).map custom = some (custom m) := by rw [hm]; rfl
  refine sync_induction (R := fun st st' =>
    (st.store.menus.byCode c).map custom = some (custom m) →
      (st'.store.menus.byCode c).map custom = some (custom m)) (fun _ h => h)
    (fun _ _ _ h h' hst => h' (h hst)) ?_ p st hcustom
  intro d _ p st h
  have hstep := env.entryStep false d p st
  by_cases hc : c = d.code
  · subst hc
    generalize (env.syncEntry false d p st).1 = st' at hstep ⊢
    generalize (env.syncEntry false d p st).2 = id at hstep
    cases hstep with
    | refresh found menus stored read links =>
      rw [found] at h
      rw [menus, if_pos rfl, Option.map_some, custom_refreshed]
      exact h
    | leave missing buried => exact h
    | create missing free menus stored read links => simp [missing] at h
  · rw [hstep.byCode_of_ne hc]
    exact h

/-- What lies under the other codes is not swept away, or stays as it is. -/
theorem byCode_initRbacMenus (force : Bool) (s : MenuStore) (hc : c ∉ env.defaultCodes) :
    (env.initRbacMenus force s).1.menus.byCode c =
      (s.menus.byCode c).filter fun m => !env.swept s m := by
  rw [initRbacMenus, (env.sync_frame force hc none _).1, syncStart]
  refine Option.ext fun m => ?_
  rw [byCode_dropObsolete, Option.filter_eq_some_iff]
  simp

/-- **What a start leaves.**  Of the menus that are not built in it leaves all but those that are
swept away, as they are; of the built-in ones it leaves, whatever it writes over, what a user may
set. -/
theorem initRbacMenus_leaves (env : MenuEnv) (s : MenuStore) :
    (∀ c ∉ env.defaultCodes, (env.initRbacMenus false s).1.menus.byCode c =
      (s.menus.byCode c).filter fun m => !env.swept s m) ∧
    ∀ m ∈ s.menus.rows, env.swept s m = false →
      ((env.initRbacMenus false s).1.menus.byCode m.code).map custom = some (custom m) := by
  refine ⟨fun c hc => byCode_initRbacMenus false s hc, ?_⟩
  · intro m hm hswept
    refine sync_custom (env.syncStart false s) ?_ env.defaults none
    exact byCode_dropObsolete.mpr ⟨MenuTable.byCode_eq_some.mpr ⟨hm, rfl⟩, hswept⟩

/-! ## A reset -/

/-- Each entry has the row that was delivered, under the row of the entry it lies under; only the
redirection, which no entry has, may be another. -/
def Restored (s : MenuStore) : Option ℕ → Forest MenuData → Prop
  | _, .nil => True
  | p, .cons d children rest =>
    (∃ m, s.menus.byCode d.code = some m ∧
      m = { d.toMenu p with id := m.id, redirect := m.redirect } ∧
      Restored s (some m.id) children) ∧ Restored s p rest

theorem Restored.congr {s' : MenuStore}
    (hmenus : ∀ c ∈ f.labels.map MenuData.code, s'.menus.byCode c = s.menus.byCode c)
    (h : Restored s p f) : Restored s' p f := by
  induction f generalizing p with
  | nil => trivial
  | cons d children rest ihchildren ihrest =>
    simp only [Forest.labels_cons, List.map_cons, List.map_append, List.mem_cons,
      List.mem_append] at hmenus
    obtain ⟨⟨m, hm, heq, hchildren⟩, hrest⟩ := h
    exact ⟨⟨m, (hmenus d.code (.inl rfl)).trans hm, heq,
      ihchildren (fun c hc => hmenus c (.inr (.inl hc))) hchildren⟩,
      ihrest (fun c hc => hmenus c (.inr (.inr hc))) hrest⟩

/-- The entries lie under a row of another code, one level below it. -/
def Under (s : MenuStore) (p : Option ℕ) (l : ℤ) (codes : List Text) : Prop :=
  match p with
  | none => l = 1
  | some id => ∃ r, s.menus.byCode r.code = some r ∧ r.id = id ∧ l = r.level + 1 ∧ r.code ∉ codes

theorem Under.congr {s' : MenuStore} {l : ℤ} {codes codes' : List Text} (h : Under s p l codes)
    (hmenus : ∀ c ∉ codes, s'.menus.byCode c = s.menus.byCode c) (hsub : codes' ⊆ codes) :
    Under s' p l codes' := by
  cases p with
  | none => exact h
  | some id =>
    obtain ⟨r, hr, hid, hl, hcode⟩ := h
    exact ⟨r, (hmenus _ hcode).trans hr, hid, hl, fun hc => hcode (hsub hc)⟩

/-- An entry of a reset has the row that was delivered. -/
theorem EntryStep.restored {st' : SyncState} {id : Option ℕ} {codes : List Text}
    (h : EntryStep env true d p st st' id) (hread : st.tombstones = [])
    (hunder : Under st.store p d.level codes) :
    st'.tombstones = [] ∧ ∃ m, id = some m.id ∧ st'.store.menus.byCode d.code = some m ∧
      m = { d.toMenu p with id := m.id, redirect := m.redirect } := by
  cases h with
  | @refresh m _ found menus stored read links =>
    refine ⟨List.eq_nil_iff_forall_not_mem.mpr fun c hc => ?_, refreshed true d p st.store m, rfl,
      (menus d.code).trans (if_pos rfl), ?_⟩
    · simp [read, hread] at hc
    · have hcode := (MenuTable.byCode_eq_some.mp found).2
      cases p with
      | none =>
        have hl : d.level = 1 := hunder
        simp [refreshed, MenuData.forced, MenuUpdate.apply, MenuUpdate.level, MenuData.toMenu,
          hcode, hl]
      | some id =>
        obtain ⟨r, hr, rfl, hl, -⟩ := hunder
        have hid : st.store.menus.byId r.id = some r :=
          MenuTable.byId_eq_some.mpr ⟨(MenuTable.byCode_eq_some.mp hr).1, rfl⟩
        simp [refreshed, MenuData.forced, MenuUpdate.apply, MenuUpdate.level, MenuData.toMenu,
          hcode, hid, hl]
  | leave missing buried => simp [hread] at buried
  | create missing free menus stored read links =>
    exact ⟨read.trans hread, _, rfl, (menus d.code).trans (if_pos rfl), rfl⟩

/-- What all entries of a reset bring back. -/
theorem restored_sync {l : ℤ} (st : SyncState) (p : Option ℕ) (hread : st.tombstones = [])
    (hlevel : Levelled l f)
    (hunder : Under st.store p l (f.labels.map MenuData.code))
    (hf : (f.labels.map MenuData.code).Nodup) :
    (env.sync true f p st).tombstones = [] ∧ Restored (env.sync true f p st).store p f := by
  induction f generalizing p st l with
  | nil => exact ⟨hread, trivial⟩
  | cons d children rest ihchildren ihrest =>
    obtain ⟨rfl, hlchildren, hlrest⟩ := hlevel
    have hstep := env.entryStep true d p st
    obtain ⟨hread₁, m, hid, hm, heq⟩ := hstep.restored hread hunder
    rw [sync_cons_some hid]
    have hframe : ∀ c ∉ (Forest.cons d children rest).labels.map MenuData.code,
        (env.syncEntry true d p st).1.store.menus.byCode c = st.store.menus.byCode c := by
      intro c hc
      exact hstep.byCode_of_ne fun heq => hc (by simp [heq])
    have hunder₁ := hunder.congr hframe (List.Subset.refl _)
    simp only [Forest.labels_cons, List.map_cons, List.map_append] at hf hunder₁
    obtain ⟨hd, hf⟩ := List.nodup_cons.mp hf
    rw [List.mem_append, not_or] at hd
    obtain ⟨hchildren, hrest, hapart⟩ := List.nodup_append.mp hf
    generalize (env.syncEntry true d p st).1 = st₁ at hread₁ hm hunder₁
    have hlevel : d.level + 1 = m.level + 1 := by rw [heq]; rfl
    have hmcode : m.code = d.code := by rw [heq]; rfl
    have hunderm : Under st₁.store (some m.id) (d.level + 1) (children.labels.map MenuData.code) :=
      ⟨m, hmcode ▸ hm, rfl, hlevel, hmcode ▸ hd.1⟩
    obtain ⟨hread₂, hrestored⟩ := ihchildren st₁ _ hread₁ hlchildren hunderm hchildren
    have hown := fun c hc => (env.sync_frame true (f := children) (c := c) hc
      (some m.id) st₁).1
    generalize env.sync true children (some m.id) st₁ = st₂ at hread₂ hrestored hown ⊢
    have hunder₂ : Under st₂.store p d.level (rest.labels.map MenuData.code) := by
      refine Under.congr hunder₁ (fun c hc => ?_) ?_
      · simp only [List.mem_cons, List.mem_append, not_or] at hc
        exact hown c hc.2.1
      · intro c hc
        simp [hc]
    obtain ⟨hread₃, hrestored'⟩ := ihrest st₂ p hread₂ hlrest hunder₂ hrest
    have hown' := fun c hc => (env.sync_frame true (f := rest) (c := c) hc
      p st₂).1
    refine ⟨hread₃, ⟨m, ?_, heq, ?_⟩, hrestored'⟩
    · rw [hown' d.code hd.2, hown d.code hd.1]
      exact hm
    · exact hrestored.congr fun c hc => hown' c fun hc' => hapart c hc c hc' rfl

theorem Restored.settled (h : Restored s p f)
    (hread : ∀ c ∈ f.labels.map MenuData.code, c ∉ s.getMenuTombstones) : Settled s f := by
  induction f generalizing p with
  | nil => trivial
  | cons d children rest ihchildren ihrest =>
    simp only [Forest.labels_cons, List.map_cons, List.map_append, List.mem_cons,
      List.mem_append] at hread
    obtain ⟨⟨m, hm, heq, hchildren⟩, hrest⟩ := h
    have htech : d.technical m = {} := by
      rw [technical_eq_empty, heq]
      exact ⟨rfl, rfl, rfl⟩
    exact ⟨.inl ⟨m, hm, hread _ (.inl rfl), htech,
      ihchildren hchildren fun c hc => hread c (.inr (.inl hc))⟩,
      ihrest hrest fun c hc => hread c (.inr (.inr hc))⟩

theorem sync_tombstones_subset (env : MenuEnv) (force : Bool) (f : Forest MenuData) (p : Option ℕ)
    (st : SyncState) :
    (env.sync force f p st).store.tombstones ⊆ st.store.tombstones := by
  refine sync_induction (R := fun st st' => st'.store.tombstones ⊆ st.store.tombstones)
    (fun _ => List.Subset.refl _) (fun _ _ _ h h' => List.Subset.trans h' h)
    (fun d _ p st => ?_) p st
  have hstep := env.entryStep force d p st
  generalize (env.syncEntry force d p st).1 = st' at hstep ⊢
  generalize (env.syncEntry force d p st).2 = id at hstep
  cases hstep with
  | refresh found menus stored read links => exact fun c hc => ((stored c).mp hc).1
  | leave missing buried => exact List.Subset.refl _
  | create missing free menus stored read links => exact stored ▸ List.Subset.refl _

/-- **What a reset brings back.**  Whatever became of the menus, every built-in one has its row as
it was delivered, under the row it belongs under, and none is buried; the other menus stay, but for
those that are swept away; and the next start changes nothing. -/
theorem resetMenus_restores (env : MenuEnv) (s : MenuStore) :
    Restored (env.resetMenus s).1 none env.defaults ∧
      (env.resetMenus s).1.getMenuTombstones = [] ∧
      (∀ c ∉ env.defaultCodes, (env.resetMenus s).1.menus.byCode c =
        (s.menus.byCode c).filter fun m => !env.swept s m) ∧
      env.initRbacMenus false (env.resetMenus s).1 = ((env.resetMenus s).1, 0) := by
  have hrestored : Restored (env.resetMenus s).1 none env.defaults :=
    (restored_sync (env.syncStart true s.clearAllMenuTombstones) none rfl
      env.levelled rfl env.nodup).2
  have htomb : (env.resetMenus s).1.getMenuTombstones = [] := by
    refine List.eq_nil_iff_forall_not_mem.mpr fun c hc => ?_
    obtain ⟨hc, hne⟩ := MenuStore.mem_getMenuTombstones.mp hc
    have hmem := env.sync_tombstones_subset true env.defaults none _ hc
    simp [syncStart, MenuStore.clearAllMenuTombstones] at hmem
    exact hne hmem.2
  have hsettled : Settled (env.resetMenus s).1 env.defaults :=
    hrestored.settled (by simp [htomb])
  refine ⟨hrestored, htomb, fun c hc => ?_,
    initRbacMenus_of_settled (obsolete_initRbacMenus true _) hsettled⟩
  exact byCode_initRbacMenus true s.clearAllMenuTombstones hc

end MenuEnv

end WolfNas
