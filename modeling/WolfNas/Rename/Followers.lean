import WolfNas.Rename.Steady

/-!
# Files that follow

A directory is listed once, and some of the files in it follow those of an item, one after
another.  Each is still where the listing saw it, since what was moved before it had another
name.

## Main definitions

* `Entries` — the files of a listing that are still to be looked at.
* `Following` — an item remembers the files that have followed it so far.

## Main results

* `entries_of_list` — what a listing says.
* `Following.step` — one more file follows.
* `RenameEnv.says_moveInto` — the part of the loop body that moves it.
-/

namespace WolfNas

open Program

variable {S : Type} [DecidableEq S] {α : Type}

/-! ## Listings -/

/-- A file that a listing of the directory shows. -/
structure Listed (b : StorageHandle S) (dir path : Text) (trees : S → MovableTree) : Prop where
  plain : '\\' ∉ path
  proper : ProperName (basenameOf path)
  place : b.place path = b.place dir ++ [basenameOf path]
  isFile : (trees b.store).isFile (b.place path) = true

/-- The files of a listing that are still to be looked at. -/
def Entries (b : StorageHandle S) (dir : Text) (entries : List (Text × Bool))
    (trees : S → MovableTree) : Prop :=
  (∀ en ∈ entries, en.2 = false → Listed b dir en.1 trees) ∧
    entries.Pairwise fun a c => a.2 = false → c.2 = false → b.place a.1 ≠ b.place c.1

variable {b : StorageHandle S} {dir : Text} {en : Text × Bool} {entries : List (Text × Bool)}
  {trees trees' : S → MovableTree}

omit [DecidableEq S] in
theorem Entries.of_files (h : Entries b dir entries trees)
    (hfiles : ∀ s, (trees' s).files = (trees s).files) : Entries b dir entries trees' := by
  refine ⟨fun en hen hfile => ?_, h.2⟩
  obtain ⟨hplain, hproper, hplace, hisFile⟩ := h.1 en hen hfile
  exact ⟨hplain, hproper, hplace, (isFile_eq_of_files (hfiles _)).trans hisFile⟩

omit [DecidableEq S] in
theorem Entries.tail (h : Entries b dir (en :: entries) trees) : Entries b dir entries trees :=
  ⟨fun en hen => h.1 en (List.mem_cons_of_mem _ hen), (List.pairwise_cons.mp h.2).2⟩

omit [DecidableEq S] in
/-- **What a listing says**: no name in the storage has a backslash. -/
theorem entries_of_list (hreg : b.Regular) (hdir : '\\' ∉ dir)
    (hproper : ∀ s p, (trees s).isFile p = true → ∃ d n, p = d ++ [n] ∧ ProperName n)
    {l arranged : List (Text × Bool)} (hl : (trees b.store).list (b.place dir) = some l)
    (hperm : arranged.Perm l) :
    Entries b dir (arranged.map fun e => (b.childPath dir e.1, e.2)) trees := by
  have hfile : ∀ e ∈ arranged, e.2 = false → ProperName e.1 ∧
      (trees b.store).isFile (b.place dir ++ [e.1]) = true := by
    intro e he hdirectory
    have hisFile : (trees b.store).isFile (b.place dir ++ [e.1]) = true := by
      rw [← FileTree.mem_list_iff hl, ← hdirectory]
      exact hperm.mem_iff.mp he
    obtain ⟨d, n, heq, hn⟩ := hproper _ _ hisFile
    obtain ⟨-, hname⟩ := List.append_inj' heq rfl
    rw [List.singleton_inj.mp hname]
    exact ⟨hn, by rwa [List.singleton_inj.mp hname] at hisFile⟩
  constructor
  · intro en hen hdirectory
    obtain ⟨e, he, rfl⟩ := List.mem_map.mp hen
    obtain ⟨hn, hisFile⟩ := hfile e he hdirectory
    have hbasename := hreg.basenameOf_childPath dir e.1 hdir hn
    have hplace := hreg.place_childPath dir e.1 hdir hn
    refine ⟨hreg.not_mem_childPath dir e.1 hdir hn, ?_, ?_, ?_⟩
    · rwa [hbasename]
    · rw [hbasename, hplace]
    · rwa [hplace]
  · rw [List.pairwise_map]
    have hnodup : (arranged.map Prod.fst).Nodup :=
      (hperm.map Prod.fst).nodup_iff.mpr (FileTree.nodup_list hl)
    have hnames : arranged.Pairwise fun a c => a.1 ≠ c.1 := List.pairwise_map.mp hnodup
    refine hnames.imp_of_mem ?_
    intro a c ha hc hne hafile hcfile heq
    rw [hreg.place_childPath dir a.1 hdir (hfile a ha hafile).1,
      hreg.place_childPath dir c.1 hdir (hfile c hc hcfile).1] at heq
    exact hne (List.singleton_inj.mp (List.append_cancel_left heq))

/-! ## One more file follows -/

/-- An item remembers, behind what it remembered, the files that have followed it so far. -/
def Following (env : RenameEnv S) (start : S → MovableTree) (rest : List RenameItem)
    (d d' : List (Trail S)) (first : Trail S) (dir : Text) (entries : List (Text × Bool))
    (moved : List (Text × Text)) (trees : S → MovableTree) : Prop :=
  (∃ e log, e.item = first.item ∧ e.handle = first.handle ∧ e.moves = first.moves ++ moved ∧
    Tracked env start rest (d ++ e :: d') log trees) ∧ Entries first.handle dir entries trees

namespace Following

variable {env : RenameEnv S} {start : S → MovableTree} {rest : List RenameItem}
  {d d' : List (Trail S)} {first : Trail S} {moved : List (Text × Text)}

theorem of_files (h : Following env start rest d d' first dir entries moved trees)
    (hfiles : ∀ s, (trees' s).files = (trees s).files) :
    Following env start rest d d' first dir entries moved trees' := by
  obtain ⟨⟨e, log, hitem, hhandle, hmoves, htracked⟩, hentries⟩ := h
  exact ⟨⟨e, log, hitem, hhandle, hmoves, htracked.of_files hfiles⟩, hentries.of_files hfiles⟩

theorem tail (h : Following env start rest d d' first dir (en :: entries) moved trees) :
    Following env start rest d d' first dir entries moved trees := ⟨h.1, h.2.tail⟩

/-- What a file has to be to follow the item: no main file, and moved last of all that is taken
back after it. -/
structure Free (env : RenameEnv S) (start : S → MovableTree) (rest : List RenameItem)
    (d d' : List (Trail S)) (first : Trail S) (src : List Text) : Prop where
  mains : ∀ c ∈ d ++ first :: d', c.handle.store = first.handle.store →
    c.handle.place (normPath c.item.newPath) ≠ src
  olds : ∀ x ∈ rest, ∀ b, env.handleOf x = some b → b.store = first.handle.store →
    b.place (normPath x.oldPath) ≠ src
  last : ∀ e log trees, e.item = first.item → e.handle = first.handle →
    Tracked env start rest (d ++ e :: d') log trees → ∀ t, t.1 = first.handle.store →
      positions log t = src → ∀ g ∈ undoLog d', g.thing ≠ t

/-- **One more file follows.** -/
theorem step {target : Text} {tree : MovableTree}
    (h : Following env start rest d d' first dir (en :: entries) moved trees)
    (hreg : first.handle.Regular) (hfile : en.2 = false)
    (hfree : Free env start rest d d' first (first.handle.place en.1))
    (htarget : '\\' ∉ target)
    (hplace : ∃ n, first.handle.place target =
      first.handle.place (dirnameOf first.item.newPath) ++ [n] ∧ ProperName n)
    (hdst : (trees first.handle.store).isThere (first.handle.place target) = false)
    (hmove : (trees first.handle.store).move (first.handle.place en.1)
      (first.handle.place target) = some tree) :
    Following env start rest d d' first dir entries
      (moved ++ [(normPath en.1, normPath target)])
      (Function.update trees first.handle.store tree) := by
  obtain ⟨⟨e, log, hitem, hhandle, hmoves, htracked⟩, hentries⟩ := h
  have hlisted := hentries.1 en List.mem_cons_self hfile
  have hold := hreg.place_normPath en.1 hlisted.plain
  have hnew := hreg.place_normPath target htarget
  have hmains : ∀ c ∈ d ++ e :: d', c.handle.store = e.handle.store →
      c.handle.place (normPath c.item.newPath) ≠ e.handle.place (normPath en.1) := by
    intro c hc hstore
    rw [hhandle, hold]
    rw [hhandle] at hstore
    rcases List.mem_append.mp hc with hc | hc
    · exact hfree.mains c (List.mem_append_left _ hc) hstore
    · rcases List.mem_cons.mp hc with rfl | hc
      · rw [hhandle, hitem]
        exact hfree.mains first (by simp) rfl
      · exact hfree.mains c (by simp [hc]) hstore
  have hsrc : (trees e.handle.store).isFile (e.handle.place (normPath en.1)) = true := by
    rw [hhandle, hold]
    exact hlisted.isFile
  have htaken : (trees e.handle.store).isThere (e.handle.place (normPath target)) = false := by
    rw [hhandle, hnew]
    exact hdst
  have hmoved := hmove
  rw [← hold, ← hnew, ← hhandle] at hmoved
  obtain ⟨e', log', hitem', hhandle', hmoves', htracked'⟩ := htracked.add hsrc htaken hmoved
    ⟨not_mem_normPath _, by simpa using hlisted.proper⟩
    (by rw [hhandle, hnew, hitem]; exact hplace) hmains
    (by rw [hhandle, hold]; exact hfree.olds)
    (by rw [hhandle, hold]; exact hfree.last e log trees hitem hhandle htracked)
  rw [hhandle] at htracked'
  refine ⟨⟨e', log', hitem'.trans hitem, hhandle'.trans hhandle, ?_, htracked'⟩, ?_, ?_⟩
  · rw [hmoves', hmoves, List.append_assoc]
  · intro c hc hcfile
    obtain ⟨hplain, hproper, hcplace, hisFile⟩ := hentries.tail.1 c hc hcfile
    refine ⟨hplain, hproper, hcplace, ?_⟩
    refine isFile_of_ne (htracked.moved.placed.sound _) hlisted.isFile hdst hmove hisFile ?_
    exact fun _ => ((List.pairwise_cons.mp hentries.2).1 c hc hfile hcfile).symm
  · exact hentries.tail.2

end Following

namespace RenameEnv

variable {env : RenameEnv S} (henv : env.Steady) {A : Assertion S}
  {E : Text → RenameWorld S → Prop}

include henv

/-- **A file is moved into a directory** where its target is free, and is written down. -/
theorem says_moveInto {C : List (Text × Text) → Assertion S} {moved : List (Text × Text)}
    {path target : Text} {d : List Text} {n : Text} (hA : OnFiles A)
    (htarget : d ++ [n] = b.place target) (hdir : b.place dir = d)
    (hstay : ∀ trees rows, A trees rows → C moved trees rows)
    (hmove : ∀ trees rows t, A trees rows → (trees b.store).isThere (b.place target) = false →
      (trees b.store).move (b.place path) (b.place target) = some t →
        C (moved ++ [(normPath path, normPath target)]) (Function.update trees b.store t) rows) :
    Triple (Says A) (do
      let taken ← env.pathExists b target
      if taken then Pure.pure moved
      else do
        let r ← (do env.mkdir b dir; env.move b path target).attempt
        match r with
        | .ok _ => Pure.pure (moved ++ [(normPath path, normPath target)])
        | .error _ => Pure.pure moved) (fun moved => Says (C moved)) E := by
  refine triple_bind (says_pathExists henv) fun taken => ?_
  cases taken with
  | true => exact says_pure fun trees rows h => hstay trees rows h.1
  | false =>
    refine triple_bind (says_attempt_move henv hA htarget hdir hmove) fun r => ?_
    cases r with
    | ok _ => exact says_pure fun _ _ h => h
    | error _ => exact says_pure fun trees rows h => hstay trees rows h

end RenameEnv

end WolfNas
