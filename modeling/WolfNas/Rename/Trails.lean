import WolfNas.Lib.Hop
import WolfNas.Rename.Handles

/-!
# The moves of a job

Every file keeps its identity while a job moves it: it is the file that was at a path of a
storage at the start.  The moves of a job are hops of such files, and each item remembers the
hops that its rollback takes back.

## Main definitions

* `Thing`, `positions` — the files at the start, and where a log has taken them.
* `Moved` — the storages are as a log says.
* `Trail` — an item that is done, with its hops and their texts.
* `Tracked` — the invariant of a job: what its trails remember reverses the log, and a media
  file lies in the directory of whatever was moved.

## Main results

* `Moved.hop` — one more move.
* `Tracked.extend` — the invariant after one more move.
* `Tracked.of_files` — only the files matter.
-/

namespace WolfNas

open Text

variable {S : Type} [DecidableEq S]

/-! ## Files and their positions -/

/-- A file: the storage and the path it is at at the start. -/
abbrev Thing (S : Type) := S × List Text

abbrev MoveLog (S : Type) := List (Hop (Thing S) (List Text))

/-- Where a log has taken the files. -/
def positions (log : MoveLog S) : Thing S → List Text := log.foldl Hop.go Prod.snd

/-- The storages have the files of the start, at the given positions. -/
structure Placed (start trees : S → MovableTree) (pos : Thing S → List Text) : Prop where
  files : ∀ s, (trees s).files = (start s).files.map fun f => (pos (s, f.1), f.2)
  sound : ∀ s, FileTree.Sound (trees s).files

/-- The thing is a file of the start. -/
def Real (start : S → MovableTree) (t : Thing S) : Prop := (start t.1).isFile t.2 = true

variable {start trees : S → MovableTree} {pos : Thing S → List Text} {t t' : Thing S} {s : S}
  {p src dst : List Text} {tree : MovableTree}

namespace Placed

omit [DecidableEq S] in
theorem exists_real (h : Placed start trees pos) (hp : (trees s).isFile p = true) :
    ∃ t, t.1 = s ∧ Real start t ∧ pos t = p := by
  obtain ⟨f, hf, rfl⟩ := FileTree.isFile_iff.mp hp
  rw [h.files, List.mem_map] at hf
  obtain ⟨g, hg, rfl⟩ := hf
  exact ⟨(s, g.1), rfl, FileTree.isFile_iff.mpr ⟨g, hg, rfl⟩, rfl⟩

omit [DecidableEq S] in
theorem isFile (h : Placed start trees pos) (ht : Real start t) :
    (trees t.1).isFile (pos t) = true := by
  obtain ⟨f, hf, hpath⟩ := FileTree.isFile_iff.mp ht
  rw [FileTree.isFile_iff, h.files]
  exact ⟨_, List.mem_map_of_mem hf, by rw [hpath]⟩

omit [DecidableEq S] in
/-- No two files are at one path. -/
theorem eq_of_pos_eq (h : Placed start trees pos) (ht : Real start t) (ht' : Real start t')
    (hstore : t.1 = t'.1) (hpos : pos t = pos t') : t = t' := by
  obtain ⟨f, hf, hpath⟩ := FileTree.isFile_iff.mp ht
  obtain ⟨g, hg, hpath'⟩ := FileTree.isFile_iff.mp ht'
  rw [← hstore] at hg
  have hnodup := (trees t.1).nodup
  rw [h.files, List.map_map] at hnodup
  have hfg : f = g := by
    refine List.inj_on_of_nodup_map hnodup hf hg ?_
    simp only [Function.comp_apply, hpath, hpath', Prod.mk.eta]
    rwa [hstore, Prod.mk.eta]
  refine Prod.ext hstore ?_
  rw [← hpath, ← hpath', hfg]

/-- **A file is moved** to where nothing is. -/
theorem move (h : Placed start trees pos) (ht : Real start t)
    (hmove : (trees t.1).move (pos t) dst = some tree)
    (hdst : (trees t.1).isThere dst = false) :
    Placed start (Function.update trees t.1 tree) (Function.update pos t dst) := by
  have hmoved := FileTree.files_move (h.sound t.1) hmove (h.isFile ht) hdst
  constructor
  · intro s
    by_cases hs : s = t.1
    · subst hs
      rw [Function.update_self, hmoved, FileTree.moved, h.files, List.map_map]
      refine List.map_congr_left fun f hf => Prod.ext ?_ rfl
      have hreal : Real start (t.1, f.1) := FileTree.isFile_iff.mpr ⟨f, hf, rfl⟩
      by_cases heq : (t.1, f.1) = t
      · simp [heq]
      · have hne : pos (t.1, f.1) ≠ pos t := fun hpos => heq (h.eq_of_pos_eq hreal ht rfl hpos)
        simp [hne, Function.update_of_ne heq]
    · rw [Function.update_of_ne hs, h.files]
      refine List.map_congr_left fun f _ => ?_
      rw [Function.update_of_ne]
      exact fun heq => hs (congrArg Prod.fst heq)
  · intro s
    by_cases hs : s = t.1
    · subst hs
      rw [Function.update_self, hmoved]
      exact FileTree.sound_move (h.sound t.1) hmove hdst
    · rw [Function.update_of_ne hs]
      exact h.sound s

end Placed

omit [DecidableEq S] in
theorem isFile_eq_of_files {tree' : MovableTree} (h : tree'.files = tree.files) :
    tree'.isFile p = tree.isFile p := by rw [FileTree.isFile, FileTree.isFile, h]

section Move

variable (hsound : FileTree.Sound (trees s).files) (hsrc : (trees s).isFile src = true)
  (hdst : (trees s).isThere dst = false) (hmove : (trees s).move src dst = some tree)

include hsound hsrc hdst hmove

theorem isFile_target : (Function.update trees s tree s).isFile dst = true := by
  obtain ⟨f, hf, rfl⟩ := FileTree.isFile_iff.mp hsrc
  rw [Function.update_self, FileTree.isFile_iff, FileTree.files_move hsound hmove hsrc hdst]
  exact ⟨_, List.mem_map_of_mem hf, by simp⟩

/-- The other files stay where they are. -/
theorem isFile_of_ne {s' : S} (hp : (trees s').isFile p = true) (hne : s' = s → p ≠ src) :
    (Function.update trees s tree s').isFile p = true := by
  by_cases hs : s' = s
  · subst hs
    obtain ⟨f, hf, rfl⟩ := FileTree.isFile_iff.mp hp
    rw [Function.update_self, FileTree.isFile_iff, FileTree.files_move hsound hmove hsrc hdst]
    exact ⟨_, List.mem_map_of_mem hf, by simp [hne rfl]⟩
  · rwa [Function.update_of_ne hs]

end Move

/-! ## A log of moves -/

/-- The storages are as the log says, and no file's name has a backslash. -/
structure Moved (start : S → MovableTree) (log : MoveLog S) (trees : S → MovableTree) :
    Prop where
  placed : Placed start trees (positions log)
  fits : Hop.Fits Prod.snd log
  real : ∀ h ∈ log, Real start h.thing
  proper : ∀ s p, (trees s).isFile p = true → ∃ d n, p = d ++ [n] ∧ ProperName n

theorem positions_concat (log : MoveLog S) (h : Hop (Thing S) (List Text)) :
    positions (log ++ [h]) = Function.update (positions log) h.thing h.target := by
  rw [positions, List.foldl_append, List.foldl_cons, List.foldl_nil, Hop.go, positions]

/-- **One more move**: a file goes to where nothing is. -/
theorem Moved.hop {log : MoveLog S} (h : Moved start log trees)
    (hsrc : (trees s).isFile src = true) (hdst : (trees s).isThere dst = false)
    (hmove : (trees s).move src dst = some tree) (hname : ∃ d n, dst = d ++ [n] ∧ ProperName n) :
    ∃ t, t.1 = s ∧ positions log t = src ∧
      Moved start (log ++ [⟨t, src, dst⟩]) (Function.update trees s tree) := by
  obtain ⟨t, rfl, hreal, rfl⟩ := h.placed.exists_real hsrc
  refine ⟨t, rfl, rfl, ?_, ?_, ?_, ?_⟩
  · rw [positions_concat]
    exact h.placed.move hreal hmove hdst
  · rw [Hop.fits_append]
    exact ⟨h.fits, rfl, trivial⟩
  · intro g hg
    rcases List.mem_append.mp hg with hg | hg
    · exact h.real g hg
    · obtain rfl := List.mem_singleton.mp hg
      exact hreal
  · intro s p hp
    by_cases hs : s = t.1
    · subst hs
      obtain ⟨f, hf, rfl⟩ := FileTree.isFile_iff.mp hp
      rw [Function.update_self, FileTree.files_move (h.placed.sound t.1) hmove hsrc hdst,
        FileTree.moved, List.mem_map] at hf
      obtain ⟨g, hg, rfl⟩ := hf
      dsimp only
      split_ifs
      · exact hname
      · exact h.proper t.1 g.1 (FileTree.isFile_iff.mpr ⟨g, hg, rfl⟩)
    · rw [Function.update_of_ne hs] at hp
      exact h.proper s p hp

theorem Moved.of_files {log : MoveLog S} (h : Moved start log trees) {trees' : S → MovableTree}
    (hfiles : ∀ s, (trees' s).files = (trees s).files) : Moved start log trees' where
  placed := ⟨fun s => (hfiles s).trans (h.placed.files s), fun s => by
    rw [hfiles]
    exact h.placed.sound s⟩
  fits := h.fits
  real := h.real
  proper := fun s p hp => h.proper s p (by rwa [isFile_eq_of_files (hfiles s)] at hp)

/-! ## Items and their hops -/

/-- The texts of a move name a hop. -/
structure Records (b : StorageHandle S) (old new : Text) (h : Hop (Thing S) (List Text)) :
    Prop where
  store : h.thing.1 = b.store
  source : h.source = b.place old
  target : h.target = b.place new
  plain : '\\' ∉ old
  proper : ProperName (basenameOf old)

/-- An item that is done: the storage it was on, and its hops. -/
structure Trail (S : Type) where
  item : RenameItem
  handle : StorageHandle S
  main : Hop (Thing S) (List Text)
  aux : MoveLog S := []
  moves : List (Text × Text) := []

/-- The hops of some items in the order in which a rollback takes them back. -/
def undoLog (done : List (Trail S)) : MoveLog S :=
  done.reverse.flatMap fun e => e.aux.reverse ++ [e.main]

/-- The item remembers one more hop. -/
def Trail.add (e : Trail S) (h : Hop (Thing S) (List Text)) (m : Text × Text) : Trail S :=
  { e with aux := e.aux ++ [h], moves := e.moves ++ [m] }

/-- The texts that an item remembers name its hops. -/
structure Trail.Good (e : Trail S) : Prop where
  main : Records e.handle (normPath e.item.oldPath) (normPath e.item.newPath) e.main
  aux : List.Forall₂ (fun m h => Records e.handle m.1 m.2 h) e.moves e.aux

namespace RenameEnv

/-- The storage of an item. -/
def handleOf (env : RenameEnv S) (x : RenameItem) : Option (StorageHandle S) :=
  env.resolve 0 (normalizeBackend x.backendId)

end RenameEnv

/-- The invariant of a job: of the items that are done, and of those that are left. -/
structure Tracked (env : RenameEnv S) (start : S → MovableTree) (rest : List RenameItem)
    (done : List (Trail S)) (log : MoveLog S) (trees : S → MovableTree) : Prop where
  moved : Moved start log trees
  reverses : Hop.Reverses log (undoLog done)
  handles : ∀ e ∈ done, env.handleOf e.item = some e.handle
  good : ∀ e ∈ done, e.Good
  mains : ∀ e ∈ done,
    (trees e.handle.store).isFile (e.handle.place (normPath e.item.newPath)) = true
  olds : ∀ x ∈ rest, ∀ b, env.handleOf x = some b →
    (trees b.store).isFile (b.place (normPath x.oldPath)) = true
  /-- Whatever was moved lies beside the main file of an item. -/
  beside : ∀ h ∈ log, ∃ e ∈ done, e.handle.store = h.thing.1 ∧
    (positions log h.thing).dropLast = e.handle.place (dirnameOf e.item.newPath)

namespace Tracked

variable {env : RenameEnv S} {rest rest' : List RenameItem} {done done' : List (Trail S)}
  {log : MoveLog S} {trees' : S → MovableTree}

/-- Only the files matter. -/
theorem of_files (h : Tracked env start rest done log trees)
    (hfiles : ∀ s, (trees' s).files = (trees s).files) :
    Tracked env start rest done log trees' where
  moved := h.moved.of_files hfiles
  reverses := h.reverses
  handles := h.handles
  good := h.good
  mains := fun e he => (isFile_eq_of_files (hfiles _)).trans (h.mains e he)
  olds := fun x hx b hb => (isFile_eq_of_files (hfiles _)).trans (h.olds x hx b hb)
  beside := h.beside

/-- The trails after a move are those before, and remember more. -/
structure Extends (env : RenameEnv S) (done done' : List (Trail S)) (s : S) (dst : List Text) :
    Prop where
  handles : ∀ e ∈ done', env.handleOf e.item = some e.handle
  good : ∀ e ∈ done', e.Good
  kept : ∀ e ∈ done, ∃ e' ∈ done', e'.item = e.item ∧ e'.handle = e.handle
  /-- A new trail is that of the main file that was moved. -/
  old : ∀ e' ∈ done', (∃ e ∈ done, e.item = e'.item ∧ e.handle = e'.handle) ∨
    e'.handle.store = s ∧ e'.handle.place (normPath e'.item.newPath) = dst
  beside : ∃ e ∈ done', e.handle.store = s ∧
    dst.dropLast = e.handle.place (dirnameOf e.item.newPath)

/-- **The invariant after one more move**, of a file that is no main file of the items. -/
theorem extend {done' : Thing S → List (Trail S)} (h : Tracked env start rest done log trees)
    (hrest : rest' ⊆ rest)
    (hsrc : (trees s).isFile src = true) (hdst : (trees s).isThere dst = false)
    (hmove : (trees s).move src dst = some tree) (hname : ∃ d n, dst = d ++ [n] ∧ ProperName n)
    (hmains : ∀ e ∈ done, e.handle.store = s → e.handle.place (normPath e.item.newPath) ≠ src)
    (holds : ∀ x ∈ rest', ∀ b, env.handleOf x = some b → b.store = s →
      b.place (normPath x.oldPath) ≠ src)
    (hdone : ∀ t, t.1 = s → positions log t = src → Extends env done (done' t) s dst ∧
      Hop.Reverses (log ++ [⟨t, src, dst⟩]) (undoLog (done' t))) :
    ∃ t log', Tracked env start rest' (done' t) log' (Function.update trees s tree) := by
  obtain ⟨t, ht, hpos, hmoved⟩ := h.moved.hop hsrc hdst hmove hname
  obtain ⟨hext, hundo⟩ := hdone t ht hpos
  have hsound := h.moved.placed.sound s
  refine ⟨t, _, hmoved, hundo, hext.handles, hext.good, ?_, ?_, ?_⟩
  · intro e' he'
    rcases hext.old e' he' with ⟨e, he, hitem, hhandle⟩ | ⟨hs, hplace⟩
    · rw [← hitem, ← hhandle]
      exact isFile_of_ne hsound hsrc hdst hmove (h.mains e he) (hmains e he)
    · rw [hplace, hs]
      exact isFile_target hsound hsrc hdst hmove
  · intro x hx b hb
    exact isFile_of_ne hsound hsrc hdst hmove (h.olds x (hrest hx) b hb) (holds x hx b hb)
  · intro g hg
    rw [positions_concat]
    by_cases heq : g.thing = t
    · obtain ⟨e, he, hstore, hdir⟩ := hext.beside
      refine ⟨e, he, hstore.trans (by rw [heq, ht]), ?_⟩
      simpa [heq] using hdir
    · have hlog : g ∈ log := by
        rcases List.mem_append.mp hg with hg | hg
        · exact hg
        · exact absurd (congrArg Hop.thing (List.mem_singleton.mp hg)) heq
      obtain ⟨e, he, hstore, hdir⟩ := h.beside g hlog
      obtain ⟨e', he', hitem, hhandle⟩ := hext.kept e he
      refine ⟨e', he', by rw [hhandle, hstore], ?_⟩
      rw [hitem, hhandle, ← hdir]
      exact congrArg List.dropLast (Function.update_of_ne heq _ _)

omit [DecidableEq S] in
theorem undoLog_split (d d' : List (Trail S)) (e : Trail S) :
    undoLog (d ++ e :: d') = undoLog d' ++ (e.aux.reverse ++ [e.main] ++ undoLog d) := by
  simp [undoLog]

omit [DecidableEq S] in
theorem undoLog_add (d d' : List (Trail S)) (e : Trail S) (g : Hop (Thing S) (List Text))
    (m : Text × Text) : undoLog (d ++ e.add g m :: d') =
      undoLog d' ++ g :: (e.aux.reverse ++ [e.main] ++ undoLog d) := by
  simp [undoLog, Trail.add]

/-- **The main file of an item is moved.** -/
theorem begin {x : RenameItem} {b : StorageHandle S}
    (h : Tracked env start (x :: rest) done log trees) (hb : env.handleOf x = some b)
    (hreg : b.Regular) (hold : ProperName (basenameOf x.oldPath))
    (hnew : ProperName (basenameOf x.newPath))
    (hdst : (trees b.store).isThere (b.place (normPath x.newPath)) = false)
    (hmove : (trees b.store).move (b.place (normPath x.oldPath)) (b.place (normPath x.newPath)) =
      some tree)
    (hmains : ∀ e ∈ done, e.handle.store = b.store →
      e.handle.place (normPath e.item.newPath) ≠ b.place (normPath x.oldPath))
    (holds : ∀ y ∈ rest, ∀ c, env.handleOf y = some c → c.store = b.store →
      c.place (normPath y.oldPath) ≠ b.place (normPath x.oldPath)) :
    ∃ e log', e.item = x ∧ e.handle = b ∧ e.moves = [] ∧
      Tracked env start rest (done ++ [e]) log' (Function.update trees b.store tree) := by
  have hplace := hreg.place_eq (normPath x.newPath) (not_mem_normPath _) (by simpa using hnew)
  rw [dirnameOf_normPath, basenameOf_normPath] at hplace
  let trail (t : Thing S) : Trail S :=
    { item := x, handle := b,
      main := ⟨t, b.place (normPath x.oldPath), b.place (normPath x.newPath)⟩ }
  have hdone : ∀ t, t.1 = b.store → positions log t = b.place (normPath x.oldPath) →
      Extends env done (done ++ [trail t]) b.store (b.place (normPath x.newPath)) ∧
        Hop.Reverses (log ++ [(trail t).main]) (undoLog (done ++ [trail t])) := by
    intro t ht hpos
    refine ⟨⟨?_, ?_, ?_, ?_, ?_⟩, ?_⟩
    · intro e he
      rcases List.mem_append.mp he with he | he
      · exact h.handles e he
      · obtain rfl := List.mem_singleton.mp he
        exact hb
    · intro e he
      rcases List.mem_append.mp he with he | he
      · exact h.good e he
      · obtain rfl := List.mem_singleton.mp he
        exact ⟨⟨ht, rfl, rfl, not_mem_normPath _, by simpa using hold⟩, .nil⟩
    · exact fun e he => ⟨e, List.mem_append_left _ he, rfl, rfl⟩
    · intro e he
      rcases List.mem_append.mp he with he | he
      · exact .inl ⟨e, he, rfl, rfl⟩
      · obtain rfl := List.mem_singleton.mp he
        exact .inr ⟨rfl, rfl⟩
    · refine ⟨trail t, List.mem_append_right _ List.mem_cons_self, rfl, ?_⟩
      rw [hplace, List.dropLast_concat]
    · rw [undoLog_split]
      exact h.reverses.insert_front
  obtain ⟨t, log', htracked⟩ := h.extend (List.subset_cons_self x rest)
    (h.olds x List.mem_cons_self b hb) hdst hmove ⟨_, _, hplace, hnew⟩ hmains holds hdone
  exact ⟨trail t, log', rfl, rfl, rfl, htracked⟩

/-- **Another file is moved**, and an item remembers it. -/
theorem add {d d' : List (Trail S)} {e : Trail S} {old new : Text}
    (h : Tracked env start rest (d ++ e :: d') log trees)
    (hsrc : (trees e.handle.store).isFile (e.handle.place old) = true)
    (hdst : (trees e.handle.store).isThere (e.handle.place new) = false)
    (hmove : (trees e.handle.store).move (e.handle.place old) (e.handle.place new) = some tree)
    (hold : '\\' ∉ old ∧ ProperName (basenameOf old))
    (hnew : ∃ n, e.handle.place new = e.handle.place (dirnameOf e.item.newPath) ++ [n] ∧
      ProperName n)
    (hmains : ∀ c ∈ d ++ e :: d', c.handle.store = e.handle.store →
      c.handle.place (normPath c.item.newPath) ≠ e.handle.place old)
    (holds : ∀ x ∈ rest, ∀ b, env.handleOf x = some b → b.store = e.handle.store →
      b.place (normPath x.oldPath) ≠ e.handle.place old)
    (hlast : ∀ t, t.1 = e.handle.store → positions log t = e.handle.place old →
      ∀ g ∈ undoLog d', g.thing ≠ t) :
    ∃ e' log', e'.item = e.item ∧ e'.handle = e.handle ∧ e'.moves = e.moves ++ [(old, new)] ∧
      Tracked env start rest (d ++ e' :: d') log'
        (Function.update trees e.handle.store tree) := by
  obtain ⟨n, hplace, hn⟩ := hnew
  let hop (t : Thing S) : Hop (Thing S) (List Text) :=
    ⟨t, e.handle.place old, e.handle.place new⟩
  have hdone : ∀ t, t.1 = e.handle.store → positions log t = e.handle.place old →
      Extends env (d ++ e :: d') (d ++ e.add (hop t) (old, new) :: d') e.handle.store
        (e.handle.place new) ∧
        Hop.Reverses (log ++ [hop t]) (undoLog (d ++ e.add (hop t) (old, new) :: d')) := by
    intro t ht hpos
    have hmem : ∀ {c : Trail S}, c ∈ d ++ e.add (hop t) (old, new) :: d' →
        c = e.add (hop t) (old, new) ∨ c ∈ d ++ e :: d' := by
      intro c hc
      simp only [List.mem_append, List.mem_cons] at hc ⊢
      tauto
    have he : e ∈ d ++ e :: d' := by simp
    refine ⟨⟨?_, ?_, ?_, ?_, ?_⟩, ?_⟩
    · intro c hc
      rcases hmem hc with rfl | hc
      · exact h.handles e he
      · exact h.handles c hc
    · intro c hc
      rcases hmem hc with rfl | hc
      · have hgood := h.good e he
        refine ⟨hgood.main, ?_⟩
        exact List.rel_append hgood.aux (.cons ⟨ht, rfl, rfl, hold.1, hold.2⟩ .nil)
      · exact h.good c hc
    · intro c hc
      rcases List.mem_append.mp hc with hc | hc
      · exact ⟨c, List.mem_append_left _ hc, rfl, rfl⟩
      · rcases List.mem_cons.mp hc with rfl | hc
        · exact ⟨c.add (hop t) (old, new), by simp, rfl, rfl⟩
        · exact ⟨c, by simp [hc], rfl, rfl⟩
    · intro c hc
      rcases hmem hc with rfl | hc
      · exact .inl ⟨e, he, rfl, rfl⟩
      · exact .inl ⟨c, hc, rfl, rfl⟩
    · refine ⟨e.add (hop t) (old, new), by simp, rfl, ?_⟩
      rw [hplace, List.dropLast_concat]
      rfl
    · rw [undoLog_add]
      have hreverses := h.reverses
      rw [undoLog_split] at hreverses
      exact hreverses.insert (hlast t ht hpos)
  obtain ⟨t, log', htracked⟩ := h.extend (List.Subset.refl rest) hsrc hdst hmove
    ⟨_, _, hplace, hn⟩ hmains holds hdone
  exact ⟨e.add (hop t) (old, new), log', rfl, rfl, rfl, htracked⟩

end Tracked

end WolfNas
