import WolfNas.Rename.Contents
import WolfNas.Rename.Handles

/-!
# Whose auxiliary files

Each item takes the files along that pass its own tests, and does not look at the other main files
of the directory.  A subtitle passes when its name goes on behind the main file's, after a dot.

## Main definitions

* `Always`: what holds of a storage, and did in all states the program went through.
* `Owns`: the name goes on behind the main file's, and behind no longer one of the directory.
* `RenameEnv.TakesOnlyItsOwn`: the files of its directory that an item takes along are its own.

## Main results

* `RenameEnv.stays_executeItem`: a file that passes no test of an item stays where it is.
* `RenameEnv.takesOnlyItsOwn`: where no name continues another, every item keeps to its own.
-/

namespace WolfNas

open Program Text

variable {S : Type} [DecidableEq S] {α : Type}

/-! ## What stays -/

/-- It holds of the files of a storage, and did all along. -/
structure Always (s : S) (K : MovableTree → Prop) (w : RenameWorld S) : Prop where
  now : K (w.trees s)
  passed : ∀ t ∈ w.passed, K (t s)

/-- It did all along, and something holds now. -/
def AlwaysAnd (s : S) (K P : MovableTree → Prop) (w : RenameWorld S) : Prop :=
  Always s K w ∧ P (w.trees s)

/-- The file stays in the directory, in which files have proper names. -/
structure StaysIn (dir : List Text) (n : Text) (t : MovableTree) : Prop where
  isFile : t.isFile (dir ++ [n]) = true
  proper : ∀ m, t.isFile (dir ++ [m]) = true → ProperName m

namespace StaysIn

variable {dir src dst : List Text} {n : Text} {t t' : MovableTree}

theorem not_below (h : StaysIn dir n t) (hdst : t.isThere dst = false) : ¬dst <+: dir ++ [n] := by
  obtain ⟨f, hf, hpath⟩ := FileTree.isFile_iff.mp h.isFile
  rw [← hpath]
  exact FileTree.not_prefix_of_not_there hdst hf

theorem mkdir {q : List Text} (h : StaysIn dir n t) (ht : t.mkdir q = some t') :
    StaysIn dir n t' := by
  refine ⟨(FileTree.isFile_mkdir ht _).trans h.isFile, fun m hm => h.proper m ?_⟩
  rwa [FileTree.isFile_mkdir ht] at hm

/-- Something else is moved to where nothing is. -/
theorem move {d : List Text} {m : Text} (h : StaysIn dir n t) (hdst : t.isThere dst = false)
    (ht : t.move src dst = some t') (hsrc : ¬src <+: dir ++ [n]) (hpath : dst = d ++ [m])
    (hm : ProperName m) : StaysIn dir n t' := by
  refine ⟨FileTree.isFile_move_of_not_below ht (FileTree.isFile_of_not_there hdst) h.isFile hsrc,
    fun k hk => ?_⟩
  rcases FileTree.isFile_or_below_of_move ht hdst hk with hbefore | hbelow
  · exact h.proper k hbefore
  · -- what is put above the directory would have been there
    rcases List.prefix_concat_iff.mp hbelow with heq | habove
    · rw [hpath] at heq
      rw [← List.singleton_inj.mp (List.append_inj_right' heq rfl)]
      exact hm
    · exact absurd (habove.trans (List.prefix_append dir [n])) (h.not_below hdst)

end StaysIn

namespace RenameEnv

variable {env : RenameEnv S} {b : StorageHandle S} {K P : MovableTree → Prop} {s : S}

omit [DecidableEq S] in
theorem always_repo {f : RenameRows → Option (α × RenameRows)} :
    Triple (AlwaysAnd s K P) (env.repo f) (fun _ => AlwaysAnd s K P) fun _ => Always s K := by
  have h := @triple_repo S α env
    (fun trees passed => (K (trees s) ∧ ∀ t ∈ passed, K (t s)) ∧ P (trees s)) f
  exact h.weaken (fun _ hw => ⟨⟨hw.1.now, hw.1.passed⟩, hw.2⟩)
    (fun _ _ hw => ⟨⟨hw.1.1, hw.1.2⟩, hw.2⟩) fun _ _ hw => ⟨hw.1.1, hw.1.2⟩

omit [DecidableEq S] in
theorem always_ask {f : ℕ → α} :
    Triple (AlwaysAnd s K P) (env.ask f) (fun _ => AlwaysAnd s K P) fun _ => Always s K := by
  refine triple_call (fun _ _ hw => ⟨⟨hw.1.now, hw.1.passed⟩, hw.2⟩) ?_ (fun _ hw => hw.1)
    fun _ _ hw => hw.1
  intro n w a w' hw h
  cases h
  exact hw

/-- **A call of a backend** that keeps what holds of the files. -/
theorem always_storage {f : ℕ → MovableTree → Option (α × MovableTree)}
    {Q : α → MovableTree → Prop} (h : ∀ n t a t', K t → P t → f n t = some (a, t') →
      K t' ∧ Q a t') :
    Triple (AlwaysAnd b.store K P) (env.storage b f) (fun a => AlwaysAnd b.store K (Q a))
      fun _ => Always b.store K := by
  refine triple_call (fun _ _ hw => ⟨⟨hw.1.now, hw.1.passed⟩, hw.2⟩) ?_ (fun _ hw => hw.1)
    fun _ _ hw => hw.1
  intro n w a w' hw hf
  rw [Option.map_eq_some_iff] at hf
  obtain ⟨⟨a', t⟩, ht, heq⟩ := hf
  cases heq
  obtain ⟨hK, hQ⟩ := h n _ _ _ hw.1.now hw.2 ht
  refine ⟨⟨by simpa using hK, fun t' ht' => ?_⟩, by simpa using hQ⟩
  rcases List.mem_append.mp ht' with ht' | ht'
  · exact hw.1.passed t' ht'
  · rw [List.mem_singleton.mp ht', Function.update_self]
    exact hK

omit [DecidableEq S] in
/-- What is known of the files before need not be known of them after. -/
theorem always_of_and {x : Rename S α} {E : Text → RenameWorld S → Prop}
    (h : Triple (AlwaysAnd s K P) x (fun _ => AlwaysAnd s K P) E) (hP : ∀ t, P t) :
    Triple (Always s K) x (fun _ => Always s K) E :=
  h.weaken (fun _ hw => ⟨hw, hP _⟩) (fun _ _ hw => hw.1) fun _ _ hw => hw

/-! ## The storage backend -/

variable {dir d : List Text} {n m path p q : Text}

theorem always_pathExists : Triple (AlwaysAnd b.store K P) (env.pathExists b q)
    (fun taken => AlwaysAnd b.store K fun t => P t ∧ t.isThere (b.place q) = taken)
    fun _ => Always b.store K := by
  refine always_storage (Q := fun taken t => P t ∧ t.isThere (b.place q) = taken) ?_
  intro _ t a t' hK hP h
  cases h
  exact ⟨hK, hP, rfl⟩

theorem always_stat : Triple (AlwaysAnd b.store K P) (env.stat b q)
    (fun _ => AlwaysAnd b.store K P) fun _ => Always b.store K := by
  refine always_storage (Q := fun _ t => P t) ?_
  intro _ t a t' hK hP h
  cases h
  exact ⟨hK, hP⟩

/-- The directory is made, in which a path will lie. -/
theorem stays_mkdir (hq : b.place q = b.place p ++ [m]) :
    Triple (AlwaysAnd b.store (StaysIn dir n) fun t => t.isThere (b.place q) = false)
      (env.mkdir b p)
      (fun _ => AlwaysAnd b.store (StaysIn dir n) fun t => t.isThere (b.place q) = false)
      fun _ => Always b.store (StaysIn dir n) := by
  refine always_storage (Q := fun _ t => t.isThere (b.place q) = false) ?_
  intro _ t a t' hstays hfree h
  rw [Option.map_eq_some_iff] at h
  obtain ⟨t'', ht, heq⟩ := h
  cases heq
  refine ⟨hstays.mkdir ht, FileTree.isThere_mkdir ht ?_ hfree⟩
  rw [hq]
  exact fun hle => absurd hle.length_le (by simp)

/-- Something else is moved. -/
theorem stays_move (hq : b.place q = d ++ [m]) (hm : ProperName m)
    (hsrc : ¬b.place path <+: dir ++ [n]) :
    Triple (AlwaysAnd b.store (StaysIn dir n) fun t => t.isThere (b.place q) = false)
      (env.move b path q) (fun _ => AlwaysAnd b.store (StaysIn dir n) fun _ => True)
      fun _ => Always b.store (StaysIn dir n) := by
  refine always_storage (Q := fun _ _ => True) ?_
  intro _ t a t' hstays hfree h
  rw [Option.map_eq_some_iff] at h
  obtain ⟨t'', ht, heq⟩ := h
  cases heq
  exact ⟨hstays.move hfree ht hsrc hq hm, trivial⟩

/-- A directory is made and something else moved into it; an exception is caught. -/
theorem stays_attempt_move {E : Text → RenameWorld S → Prop} (hq : b.place q = b.place p ++ [m])
    (hm : ProperName m) (hsrc : ¬b.place path <+: dir ++ [n]) :
    Triple (AlwaysAnd b.store (StaysIn dir n) fun t => t.isThere (b.place q) = false)
      (do env.mkdir b p; env.move b path q).attempt
      (fun _ => Always b.store (StaysIn dir n)) E := by
  have h : Triple (AlwaysAnd b.store (StaysIn dir n) fun t => t.isThere (b.place q) = false)
      (do env.mkdir b p; env.move b path q)
      (fun _ => AlwaysAnd b.store (StaysIn dir n) fun _ => True)
      fun _ => Always b.store (StaysIn dir n) :=
    triple_bind (stays_mkdir hq) fun _ => stays_move hq hm hsrc
  refine (triple_attempt h).weaken (fun _ hw => hw) ?_ fun _ _ hw => hw
  intro r w hw
  cases r with
  | ok _ => exact hw.1
  | error _ => exact hw

/-! ## One item -/

/-- A path ends in a proper name. -/
structure NamesFile (path : Text) : Prop where
  plain : '\\' ∉ path
  proper : ProperName (basenameOf path)

/-- An entry that is no directory is a file of the directory. -/
def Recognized (b : StorageHandle S) (dir : List Text) (entry : Text × Bool) : Prop :=
  entry.2 = false → NamesFile entry.1 ∧ b.place entry.1 = dir ++ [basenameOf entry.1]

/-- Some path and not that of the file. -/
structure Elsewhere (b : StorageHandle S) (dir : List Text) (n : Text) (aux : Text × Text) :
    Prop where
  old : NamesFile aux.1
  new : ¬b.place aux.2 <+: dir ++ [n]

/-- No test of the item with these paths is passed by a file of the name. -/
def Unclaimed (oldPath newPath n : Text) : Prop :=
  ∀ path, basenameOf path = n → auxTarget (baseOf oldPath) (baseOf newPath) path = none

variable (env b) {oldPath newPath : Text}

/-- A program that asks first whether its target exists, and moves only where it does not. -/
theorem stays_unless_taken {x : Bool → Rename S α} {Q : α → RenameWorld S → Prop}
    (htaken : Triple (Always b.store (StaysIn dir n)) (x true) Q
      fun _ => Always b.store (StaysIn dir n))
    (hfree : ¬b.place q <+: dir ++ [n] →
      Triple (AlwaysAnd b.store (StaysIn dir n) fun t => t.isThere (b.place q) = false) (x false) Q
        fun _ => Always b.store (StaysIn dir n)) :
    Triple (Always b.store (StaysIn dir n)) (env.pathExists b q >>= x) Q
      fun _ => Always b.store (StaysIn dir n) := by
  refine triple_bind ((always_pathExists (P := fun _ => True)).weaken (fun _ hw => ⟨hw, trivial⟩)
    (fun _ _ hw => hw) fun _ _ hw => hw) ?_
  intro taken
  cases taken with
  | true => exact htaken.weaken (fun _ hw => hw.1) (fun _ _ hw => hw) fun _ _ hw => hw
  | false =>
    refine (triple_and_left hfree).weaken ?_ (fun _ _ hw => hw) fun _ _ hw => hw
    exact fun _ hw => ⟨hw.1.now.not_below hw.2.2, hw.1, hw.2.2⟩

theorem stays_moveAuxEntry (hreg : b.Regular) (hunclaimed : Unclaimed oldPath newPath n)
    {moved : List (Text × Text)} (hmoved : ∀ a ∈ moved, Elsewhere b dir n a) {entry : Text × Bool}
    (hentry : Recognized b dir entry) :
    Triple (Always b.store (StaysIn dir n)) (env.moveAuxEntry b oldPath newPath moved entry)
      (fun moved w => Always b.store (StaysIn dir n) w ∧ ∀ a ∈ moved, Elsewhere b dir n a)
      fun _ => Always b.store (StaysIn dir n) := by
  rw [moveAuxEntry]
  split
  · exact triple_pure moved fun _ hw => ⟨hw, hmoved⟩
  · rename_i name hname
    split_ifs at hname with hdir
    obtain ⟨hfile, hplace⟩ := hentry (Bool.eq_false_iff.mpr hdir)
    have hproper := proper_auxTarget hname (plain_baseOf newPath)
    have hplain := not_mem_dirnameOf newPath
    have htarget := hreg.place_join (dirnameOf newPath) name hplain hproper
    have hsrc : ¬b.place entry.1 <+: dir ++ [n] := by
      rw [hplace, List.prefix_append_right_inj]
      intro hle
      have heq : basenameOf entry.1 = n := by simpa using hle
      rw [hunclaimed _ heq] at hname
      cases hname
    refine stays_unless_taken env b (triple_pure moved fun _ hw => ⟨hw, hmoved⟩) fun hnew => ?_
    refine triple_bind (stays_attempt_move htarget hproper hsrc) fun r => ?_
    cases r with
    | error _ => exact triple_pure moved fun _ hw => ⟨hw, hmoved⟩
    | ok _ =>
      refine triple_pure _ fun _ hw => ⟨hw, fun a ha => ?_⟩
      rcases List.mem_append.mp ha with ha | ha
      · exact hmoved a ha
      · rw [List.mem_singleton.mp ha]
        refine ⟨⟨not_mem_normPath _, by simpa using hfile.proper⟩, ?_⟩
        rwa [hreg.place_normPath _ (not_mem_join hplain hproper.2)]

omit [DecidableEq S] in
/-- A listing shows the files of the directory under their names. -/
theorem recognized_of_list (hreg : b.Regular) (hp : '\\' ∉ p) (hdir : b.place p = dir) {k : ℕ}
    {t : MovableTree} (hproper : ∀ m, t.isFile (dir ++ [m]) = true → ProperName m)
    {l : List (Text × Bool)} (hl : t.list (b.place p) = some l) :
    ∀ en ∈ (env.arrange k l).map fun e => (b.childPath p e.1, e.2), Recognized b dir en := by
  intro en hen hfile
  obtain ⟨e, he, rfl⟩ := List.mem_map.mp hen
  have hmem : (e.1, false) ∈ l := by
    rw [← hfile]
    exact (env.arrange_perm k l).mem_iff.mp he
  rw [hdir] at hl
  have hchild := hproper e.1 ((FileTree.mem_list_iff hl e.1).mp hmem)
  have hname := hreg.basenameOf_childPath p e.1 hp hchild
  refine ⟨⟨hreg.not_mem_childPath p e.1 hp hchild, by rwa [hname]⟩, ?_⟩
  rw [hname, hreg.place_childPath p e.1 hp hchild, hdir]

theorem stays_listDir (hreg : b.Regular) (hp : '\\' ∉ p) (hdir : b.place p = dir) :
    Triple (Always b.store (StaysIn dir n)) (env.listDir b p)
      (fun entries w => (∀ en ∈ entries, Recognized b dir en) ∧ Always b.store (StaysIn dir n) w)
      fun _ => Always b.store (StaysIn dir n) := by
  refine (always_storage (P := fun _ => True)
    (Q := fun entries _ => ∀ en ∈ entries, Recognized b dir en) ?_).weaken
    (fun _ hw => ⟨hw, trivial⟩) (fun _ _ hw => ⟨hw.2, hw.1⟩) fun _ _ hw => hw
  intro k t entries t' hstays _ h
  obtain ⟨l, hl, heq⟩ := Option.map_eq_some_iff.mp h
  cases heq
  exact ⟨hstays, recognized_of_list env b hreg hp hdir hstays.proper hl⟩

theorem stays_moveAux (hreg : b.Regular) (hunclaimed : Unclaimed oldPath newPath n)
    (hdir : b.place (dirnameOf oldPath) = dir) :
    Triple (Always b.store (StaysIn dir n)) (env.moveAux b oldPath newPath)
      (fun moved w => (∀ a ∈ moved, Elsewhere b dir n a) ∧ Always b.store (StaysIn dir n) w)
      fun _ => Always b.store (StaysIn dir n) := by
  refine triple_bind (triple_attempt
    (stays_listDir env b hreg (not_mem_dirnameOf oldPath) hdir)) fun entries => ?_
  cases entries with
  | error _ => exact triple_pure [] fun _ hw => ⟨by simp, hw⟩
  | ok entries =>
    refine (triple_foldlM (fun entries moved w => (∀ en ∈ entries, Recognized b dir en) ∧
      (∀ a ∈ moved, Elsewhere b dir n a) ∧ Always b.store (StaysIn dir n) w) ?_ entries []).weaken
      (fun _ hw => ⟨hw.1, by simp, hw.2⟩) (fun _ _ hw => hw.2) fun _ _ hw => hw
    intro en entries moved
    refine triple_and_left fun hentries => triple_and_left fun hmoved => ?_
    refine (stays_moveAuxEntry env b hreg hunclaimed hmoved
      (hentries en List.mem_cons_self)).weaken (fun _ hw => hw) ?_ fun _ _ hw => hw
    exact fun _ _ hw => ⟨fun en' hen' => hentries en' (List.mem_cons_of_mem _ hen'), hw.2, hw.1⟩

theorem stays_moveBack {new old : Text} (hreg : b.Regular) (hold : NamesFile old)
    (hnew : ¬b.place new <+: dir ++ [n]) :
    Triple (AlwaysAnd b.store (StaysIn dir n) fun t => t.isThere (b.place old) = false)
      (env.moveBack b new old) (fun _ => Always b.store (StaysIn dir n))
      fun _ => Always b.store (StaysIn dir n) := by
  have hplace := hreg.place_eq old hold.plain hold.proper
  refine triple_bind (stays_attempt_move hplace hold.proper hnew) fun r => ?_
  cases r with
  | ok _ => exact keeps_pure true
  | error _ => exact keeps_pure false

theorem stays_pathExists : Keeps (Always b.store (StaysIn dir n)) (env.pathExists b q) :=
  (always_pathExists (P := fun _ => True)).weaken (fun _ hw => ⟨hw, trivial⟩) (fun _ _ hw => hw.1)
    fun _ _ hw => hw

omit [DecidableEq S] in
theorem stays_repo {f : RenameRows → Option (α × RenameRows)} :
    Keeps (Always s K) (env.repo f) :=
  (always_repo (P := fun _ => True)).weaken (fun _ hw => ⟨hw, trivial⟩) (fun _ _ hw => hw.1)
    fun _ _ hw => hw

omit [DecidableEq S] in
theorem stays_fail (id : ℕ) (reason : Text) : Keeps (Always s K) (env.fail id reason) := by
  rw [fail, updateItem]
  exact stays_repo env

/-- A file is taken back only to where nothing is. -/
theorem stays_rollbackAux (hreg : b.Regular) (ok : Bool) {aux : Text × Text}
    (haux : Elsewhere b dir n aux) :
    Keeps (Always b.store (StaysIn dir n)) (env.rollbackAux b ok aux) := by
  refine keeps_bind (stays_pathExists env b) fun newExists => ?_
  cases newExists with
  | false => exact keeps_bind (stays_pathExists env b) fun _ => keeps_pure ok
  | true =>
    refine stays_unless_taken env b (keeps_pure false) fun _ => ?_
    exact triple_bind (stays_moveBack env b hreg haux.old haux.new) fun _ => keeps_pure _

theorem stays_rollbackMain (hreg : b.Regular) (ok : Bool) (hold : NamesFile oldPath)
    (hnew : ¬b.place newPath <+: dir ++ [n]) :
    Keeps (Always b.store (StaysIn dir n)) (env.rollbackMain b oldPath newPath ok) := by
  refine keeps_bind (stays_pathExists env b) fun newExists => ?_
  cases newExists with
  | false => exact keeps_bind (stays_pathExists env b) fun _ => keeps_pure _
  | true =>
    refine stays_unless_taken env b (keeps_pure false) fun _ => ?_
    exact triple_bind (stays_moveBack env b hreg hold hnew) fun _ => keeps_pure _

/-- The item neither is nor claims the file of the directory. -/
structure Spares (b : StorageHandle S) (oldPath newPath : Text) (n : Text) : Prop where
  regular : b.Regular
  old : NamesFile oldPath
  new : NamesFile newPath
  main : ¬b.place oldPath <+: b.place (dirnameOf oldPath) ++ [n]
  unclaimed : Unclaimed oldPath newPath n

/-- The file stays in the directory of the path, and did all along. -/
abbrev Untouched (b : StorageHandle S) (oldPath n : Text) : RenameWorld S → Prop :=
  Always b.store (StaysIn (b.place (dirnameOf oldPath)) n)

section Spares

variable {env b} (hspares : Spares b oldPath newPath n) (item : RenameItem)

include hspares

theorem stays_rollbackPaths {aux : List (Text × Text)}
    (haux : ∀ a ∈ aux, Elsewhere b (b.place (dirnameOf oldPath)) n a)
    (hnew : ¬b.place newPath <+: b.place (dirnameOf oldPath) ++ [n]) :
    Keeps (Untouched b oldPath n)
      (env.rollbackPaths b oldPath newPath aux) := by
  have hloop : Keeps (Untouched b oldPath n)
      (aux.reverse.foldlM (env.rollbackAux b) true) := by
    refine (triple_foldlM (fun l _ w =>
      (∀ a ∈ l, Elsewhere b (b.place (dirnameOf oldPath)) n a) ∧
        Untouched b oldPath n w) ?_ aux.reverse true).weaken
      (fun _ hw => ⟨fun a ha => haux a (List.mem_reverse.mp ha), hw⟩) (fun _ _ hw => hw.2)
      fun _ _ hw => hw
    intro a l ok
    refine triple_and_left fun hl => ?_
    refine (stays_rollbackAux env b hspares.regular ok (hl a List.mem_cons_self)).weaken
      (fun _ hw => hw) ?_ fun _ _ hw => hw
    exact fun _ _ hw => ⟨fun a ha => hl a (List.mem_cons_of_mem _ ha), hw⟩
  exact keeps_bind hloop fun ok =>
    stays_rollbackMain env b hspares.regular ok hspares.old hnew

theorem stays_placeItem : Triple (Untouched b oldPath n)
    (env.placeItem b item oldPath newPath)
    (fun r w => (∀ aux ∈ r, ∀ a ∈ aux, Elsewhere b (b.place (dirnameOf oldPath)) n a) ∧
      Untouched b oldPath n w)
    fun _ => Untouched b oldPath n := by
  have hplace := hspares.regular.place_eq newPath hspares.new.plain hspares.new.proper
  refine stays_unless_taken env b ?_ fun _ => ?_
  · refine triple_bind (stays_fail env _ _) fun _ => triple_pure none ?_
    exact fun _ hw => ⟨by simp, hw⟩
  · refine triple_bind always_repo fun _ => triple_bind (stays_mkdir hplace) fun _ => ?_
    refine triple_bind (stays_move hplace hspares.new.proper hspares.main) fun _ => ?_
    refine triple_bind ((stays_moveAux env b hspares.regular hspares.unclaimed rfl).weaken
      (fun _ hw => hw.1) (fun _ _ hw => hw) fun _ _ hw => hw) fun aux => triple_pure (some aux) ?_
    rintro w ⟨haux, hw⟩
    exact ⟨by simpa using haux, hw⟩

omit hspares in
theorem stays_recordItem (aux : List (Text × Text)) {dir : List Text} :
    Keeps (Always b.store (StaysIn dir n)) (env.recordItem b item oldPath newPath aux) := by
  have hstat : Keeps (Always b.store (StaysIn dir n)) (env.stat b newPath) :=
    always_of_and (P := fun _ => True) (always_stat.weaken (fun _ hw => hw) (fun _ _ hw => hw)
      fun _ _ hw => hw) fun _ => trivial
  refine keeps_bind (stays_repo env) fun _ => keeps_bind hstat fun _ => ?_
  refine keeps_bind (stays_repo env) fun _ => keeps_bind ?_ fun _ => stays_repo env
  exact keeps_bind hstat fun _ => stays_repo env

theorem stays_recoverItem {aux : List (Text × Text)}
    (haux : ∀ a ∈ aux, Elsewhere b (b.place (dirnameOf oldPath)) n a)
    (hnew : ¬b.place newPath <+: b.place (dirnameOf oldPath) ++ [n]) (e : Text) :
    Keeps (Untouched b oldPath n)
      (env.recoverItem b item oldPath newPath aux e) := by
  refine keeps_bind (keeps_attempt (stays_repo env)) fun _ => ?_
  refine keeps_bind (keeps_attempt (stays_repo env)) fun _ => ?_
  exact keeps_bind (stays_rollbackPaths hspares haux hnew) fun _ => stays_repo env

theorem stays_renameItem (hnew : ¬b.place newPath <+: b.place (dirnameOf oldPath) ++ [n]) :
    Keeps (Untouched b oldPath n)
      (env.renameItem b item oldPath newPath) := by
  refine triple_bind (triple_attempt (stays_placeItem hspares item)) fun r => ?_
  cases r with
  | error e => exact stays_recoverItem hspares item (by simp) hnew e
  | ok placed =>
    cases placed with
    | none => exact triple_pure () fun _ hw => hw.2
    | some aux =>
      refine triple_and_left fun haux => ?_
      exact keeps_handle (stays_recordItem item aux)
        (stays_recoverItem hspares item (haux aux rfl) hnew)

theorem stays_checkItem : Keeps (Untouched b oldPath n)
    (env.checkItem b item oldPath newPath) := by
  have hlocks : ∀ keys, Keeps (Untouched b oldPath n)
      (env.acquireAll keys) := by
    intro keys
    induction keys with
    | nil => exact keeps_pure true
    | cons key keys ih =>
      refine keeps_bind (always_of_and (P := fun _ => True) always_ask fun _ => trivial) ?_
      intro free
      cases free with
      | true => exact ih
      | false => exact keeps_pure false
  refine keeps_bind (always_of_and (P := fun _ => True) always_stat fun _ => trivial) fun stat => ?_
  cases stat with
  | none => exact stays_fail env _ _
  | some st =>
    by_cases hchanged : FileChanged item st.1 st.2
    · simp only [if_pos hchanged]
      exact stays_fail env _ _
    · simp only [if_neg hchanged]
      refine stays_unless_taken env b (stays_fail env _ _) fun hnew => ?_
      refine (keeps_bind (hlocks _) fun free => ?_).weaken (fun _ hw => hw.1) (fun _ _ hw => hw)
        fun _ _ hw => hw
      cases free with
      | true => exact stays_renameItem hspares item hnew
      | false => exact stays_fail env _ _

end Spares

/-- **An item takes no file along** that it neither is nor claims, whatever fails on the way. -/
theorem stays_executeItem {w : RenameWorld S} {item : RenameItem}
    (hb : env.resolve w.clock (normalizeBackend item.backendId) = some b)
    (hspares : Spares b (normPath item.oldPath) (normPath item.newPath) n)
    (hw : StaysIn (b.place (dirnameOf item.oldPath)) n (w.trees b.store)) :
    Untouched b item.oldPath n ((env.executeItem item).run { w with passed := [] }).2 := by
  have hstart : Triple (fun w' => w' = { w with passed := [] })
      (env.resolveBackend item.backendId)
      (fun backend w' => backend = some b ∧ Untouched b item.oldPath n w')
      fun _ => Untouched b item.oldPath n := by
    rintro _ rfl
    have hkept : ∀ k, Untouched b item.oldPath n { w with passed := [], clock := k } := fun k =>
      ⟨hw, by simp⟩
    simp only [resolveBackend, ask, call]
    split
    · exact hkept _
    · exact hkept _
    · rename_i h
      cases h
      exact ⟨hb, hkept _⟩
    · rename_i h
      cases h
      exact hkept _
  have hitem : Triple (fun w' => w' = { w with passed := [] }) (env.executeItem item)
      (fun _ => Untouched b item.oldPath n) fun _ => Untouched b item.oldPath n := by
    refine triple_bind hstart fun backend => triple_and_left ?_
    rintro rfl
    have hcheck : Keeps (Untouched b (normPath item.oldPath) n)
        (env.checkItem b item (normPath item.oldPath) (normPath item.newPath)) :=
      stays_checkItem hspares item
    simp only [Untouched, dirnameOf_normPath] at hcheck
    dsimp only
    split_ifs
    · exact stays_fail env _ _
    · exact stays_fail env _ _
    · exact hcheck
  exact hitem.final rfl

end RenameEnv

/-! ## Longest names -/

/-- An item whose paths end in names. -/
structure FileItem where
  item : RenameItem
  old : ProperName (basenameOf item.oldPath)
  new : ProperName (basenameOf item.newPath)

/-- The main files of the items lie in one directory. -/
def SameDirectory (x y : RenameItem) : Prop :=
  normalizeBackend x.backendId = normalizeBackend y.backendId ∧
    dirnameOf x.oldPath = dirnameOf y.oldPath

/-- The name goes on behind the main file's, and behind no longer one of the directory. -/
structure Owns (items : List FileItem) (item : RenameItem) (n : Text) : Prop where
  own : baseOf item.oldPath <+: n
  longest : ∀ m ∈ items, SameDirectory m.item item → baseOf m.item.oldPath <+: n →
    (baseOf m.item.oldPath).length ≤ (baseOf item.oldPath).length

/-- No main file's name goes on behind that of another in its directory, after a dot. -/
def NoneContinues (items : List FileItem) : Prop :=
  ∀ x ∈ items, ∀ m ∈ items, SameDirectory m.item x.item →
    ¬baseOf x.item.oldPath ++ ['.'] <+: baseOf m.item.oldPath

theorem baseOf_normPath (p : Text) : baseOf (normPath p) = baseOf p := by
  rw [baseOf, basenameOf_normPath, baseOf]

theorem nil_not_mem_auxExts : ([] : Text) ∉ auxExts := by decide

/-- What passes the tests of a main file has its name, a dot, and more. -/
theorem continues_of_auxTarget {oldBase newBase path name : Text}
    (h : auxTarget oldBase newBase path = some name) : oldBase ++ ['.'] <+: basenameOf path := by
  obtain ⟨-, ext, -, hext, -, hlower⟩ := auxTarget_eq_some h
  have happend := Path.splitext_append (Path.basename_unslashed (normPath path))
  obtain hnil | ⟨e, -, he⟩ := Path.splitext_snd (basenameOf path)
  · rw [hnil] at hlower
    rw [← hlower] at hext
    exact absurd hext nil_not_mem_auxExts
  have hstem : (Path.splitext (basenameOf path)).1 = oldBase ∨
      oldBase ++ ['.'] <+: (Path.splitext (basenameOf path)).1 := by
    simp only [auxTarget] at h
    split_ifs at h with hsubtitle haudio hnfo
    · exact hsubtitle.2.imp id List.isPrefixOf_iff_prefix.mp
    · exact .inl haudio.2
    · exact .inl hnfo.2.1
  rw [← basenameOf] at happend
  rw [← happend, he]
  rcases hstem with hstem | hstem
  · rw [hstem]
    exact ⟨e, by simp⟩
  · exact hstem.trans (List.prefix_append _ _)

/-- Where no name continues another, what passes the tests of an item is its own. -/
theorem owns_of_auxTarget {items : List FileItem} (h : NoneContinues items) {x : FileItem}
    (hx : x ∈ items) {newBase path name : Text}
    (hpath : auxTarget (baseOf x.item.oldPath) newBase path = some name) :
    Owns items x.item (basenameOf path) := by
  have hdot := continues_of_auxTarget hpath
  refine ⟨(List.prefix_append _ _).trans hdot, fun m hm hsame hprefix => ?_⟩
  by_contra hlonger
  refine h x hx m hm hsame (List.prefix_of_prefix_length_le hdot hprefix ?_)
  rw [List.length_append, List.length_singleton]
  omega

/-- In some state that the program goes through the file is not there any more. -/
def LeavesDuring (x : Rename S Unit) (w : RenameWorld S) (s : S) (p : List Text) : Prop :=
  (w.trees s).isFile p = true ∧
    ∃ t ∈ (x.run { w with passed := [] }).2.passed, (t s).isFile p = false

namespace RenameEnv

variable (env : RenameEnv S)

/-- Of the files of its directory, the item takes along the main file and what it owns. -/
def TakesOnlyItsOwn (items : List FileItem) (item : RenameItem) (w : RenameWorld S) : Prop :=
  ∀ b, env.resolve w.clock (normalizeBackend item.backendId) = some b →
    let dir := b.place (dirnameOf item.oldPath)
    (∀ m, (w.trees b.store).isFile (dir ++ [m]) = true → ProperName m) →
      ∀ n, LeavesDuring (env.executeItem item) w b.store (dir ++ [n]) →
        n = basenameOf item.oldPath ∨ Owns items item n

/-- The items that a worker executes, each with the state in which it does. -/
def executions (jobId : ℕ) :
    List RenameItem → RenameWorld S → List (RenameItem × RenameWorld S)
  | [], _ => []
  | item :: items, w =>
    match (do env.maybeCancelled jobId; env.getJob jobId : Rename S (Option JobStatus)).run w with
    | (.error _, _) => []
    | (.ok status, w₁) =>
      if status = some .cancelling ∨ status = some .cancelled then []
      else (item, w₁) :: match (do env.executeItem item; env.extendLock : Rename S Bool).run w₁ with
        | (.ok true, w₂) => executions jobId items w₂
        | _ => []

variable {env}

theorem fst_mem_of_mem_executions {jobId : ℕ} {items : List RenameItem} {w : RenameWorld S}
    {x : RenameItem × RenameWorld S} (h : x ∈ env.executions jobId items w) : x.1 ∈ items := by
  induction items generalizing w with
  | nil => cases h
  | cons item items ih =>
    rw [executions] at h
    split at h
    · cases h
    · split_ifs at h
      · cases h
      · rcases List.mem_cons.mp h with rfl | h
        · exact List.mem_cons_self
        · split at h
          · exact List.mem_cons_of_mem _ (ih h)
          · cases h

/-- Where no name continues another, every item takes only its own along. -/
theorem takesOnlyItsOwn (henv : ∀ n id b, env.resolve n id = some b → b.Regular)
    {items : List FileItem} (h : NoneContinues items) {x : FileItem} (hx : x ∈ items)
    (w : RenameWorld S) : env.TakesOnlyItsOwn items x.item w := by
  intro b hb dir hproper n hleaves
  obtain ⟨hfile, t, ht, hgone⟩ := hleaves
  by_contra hneither
  rw [not_or] at hneither
  have hreg := henv _ _ _ hb
  have hspares : Spares b (normPath x.item.oldPath) (normPath x.item.newPath) n := by
    refine ⟨hreg, ⟨not_mem_normPath _, by simpa using x.old⟩,
      ⟨not_mem_normPath _, by simpa using x.new⟩, ?_, ?_⟩
    · rw [dirnameOf_normPath, hreg.place_eq _ (not_mem_normPath _) (by simpa using x.old),
        dirnameOf_normPath, basenameOf_normPath, List.prefix_append_right_inj]
      intro hle
      have heq : basenameOf x.item.oldPath = n := by simpa using hle
      exact hneither.1 heq.symm
    · intro path hpath
      by_contra hsome
      obtain ⟨name, hname⟩ := Option.ne_none_iff_exists'.mp hsome
      rw [baseOf_normPath] at hname
      exact hneither.2 (hpath ▸ owns_of_auxTarget h hx hname)
  have hstays := (stays_executeItem env b hb hspares ⟨hfile, hproper⟩).passed t ht
  rw [hstays.isFile] at hgone
  cases hgone

end RenameEnv

end WolfNas
