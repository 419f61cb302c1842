import WolfNas.Rename.Ownership
import WolfNas.Rename.RoundTrip

/-!
# What an item claims of another

Where the name of a main file goes on behind that of another after a dot, so does the name of its
subtitle; the other item takes the subtitle along as soon as it is executed before.

## Main definitions

* `Roads`: two files of one directory, and where they are to go.
* `KeepsOwnership`: in every run every item takes only its own files along.

## Main results

* `RenameEnv.taken_executeItem`: the item takes a subtitle along that passes its tests.
* `keepsOwnership_iff`: every item keeps to its own where no name continues another's.
-/

namespace WolfNas

open Program Text

/-! ## Names -/

/-- The extensions of the subtitles below, in capitals and without their dot. -/
def claimExts : List Text := ["SRT", "ASS", "SSA"].map of

theorem claimExts_plain : ∀ e ∈ claimExts, e.length = 3 ∧ '/' ∉ e ∧ '\\' ∉ e ∧ '.' ∉ e := by decide

theorem claimExts_lower : ∀ e ∈ claimExts, lower ('.' :: e) ∈ subtitleExts ∧
    lower e ≠ e := by decide

theorem claimExts_lower_inj : ∀ e ∈ claimExts, ∀ e' ∈ claimExts, lower e = lower e' → e = e' := by
  decide

/-- A subtitle of a main file of the name. -/
def claimName (base e : Text) : Text := base ++ 'x' :: '.' :: e

/-- What the subtitle becomes. -/
def claimTarget (oldBase newBase base e : Text) : Text :=
  newBase ++ (base ++ ['x']).drop oldBase.length ++ lower ('.' :: e)

variable {oldBase newBase base e path s : Text}

theorem splitext_claimName (hbase : '/' ∉ base) (he : e ∈ claimExts) :
    Path.splitext (claimName base e) = (base ++ ['x'], '.' :: e) := by
  obtain ⟨-, hslash, -, hdot⟩ := claimExts_plain e he
  have h := @Path.splitext_of_dot (base ++ ['x']) e (by simp [hbase]) ⟨hslash, hdot⟩ (by simp)
  rwa [List.append_assoc] at h

/-- The subtitle passes the tests of the main file whose name its own goes on behind. -/
theorem auxTarget_claimName (hbase : '/' ∉ base) (hdot : oldBase ++ ['.'] <+: base)
    (he : e ∈ claimExts) (hpath : basenameOf path = claimName base e) :
    auxTarget oldBase newBase path = some (claimTarget oldBase newBase base e) := by
  have hstarts : (base ++ ['x']).startsWith (oldBase ++ ['.']) = true :=
    List.isPrefixOf_iff_prefix.mpr (hdot.trans (List.prefix_append _ _))
  simp only [auxTarget, hpath, splitext_claimName hbase he]
  rw [if_pos ⟨(claimExts_lower e he).1, .inr hstarts⟩]
  rfl

theorem proper_claimName (hbase : '/' ∉ base ∧ '\\' ∉ base) (he : e ∈ claimExts) :
    ProperName (claimName base e) := by
  obtain ⟨hlength, hslash, hback, -⟩ := claimExts_plain e he
  have hne : ∀ t : Text, t.length < 3 → claimName base e ≠ t := by
    intro t ht heq
    have hlen := congrArg List.length heq
    simp only [claimName, List.length_append, List.length_cons] at hlen
    omega
  refine ⟨⟨hne _ (by simp), hne _ (by simp), hne _ (by simp), ?_⟩, ?_⟩
  · simp [claimName, hbase.1, hslash]
  · simp [claimName, hbase.2, hback]

/-- Behind the name of a file without its extension there is only one dot. -/
theorem basenameOf_ne (hs : '.' ∈ s) : basenameOf path ≠ baseOf path ++ '.' :: s := by
  intro heq
  have happend := Path.splitext_append (Path.basename_unslashed (normPath path))
  rw [← basenameOf] at happend
  have hext : (Path.splitext (basenameOf path)).2 = '.' :: s :=
    List.append_cancel_left (happend.trans heq)
  rcases Path.splitext_snd (basenameOf path) with hnil | ⟨e, hdot, he⟩
  · rw [hnil] at hext
    cases hext
  · rw [he, List.cons.injEq] at hext
    rw [hext.2] at hdot
    exact hdot hs

theorem claimName_ne_basenameOf (hdot : baseOf path ++ ['.'] <+: base) :
    claimName base e ≠ basenameOf path := by
  obtain ⟨r, rfl⟩ := hdot
  have h := @basenameOf_ne path (r ++ 'x' :: '.' :: e) (by simp)
  simpa [claimName] using h.symm

theorem claimTarget_ne_basenameOf (hdot : oldBase ++ ['.'] <+: base) :
    claimTarget oldBase (baseOf path) base e ≠ basenameOf path := by
  obtain ⟨r, rfl⟩ := hdot
  have hlower : lower ('.' :: e) = '.' :: lower e := rfl
  have h := @basenameOf_ne path (r ++ 'x' :: '.' :: lower e) (by simp)
  simpa [claimTarget, hlower] using h.symm

theorem claimTarget_ne_claimName (he : e ∈ claimExts) :
    claimTarget oldBase newBase base e ≠ claimName base e := by
  intro heq
  have htarget : claimTarget oldBase newBase base e =
      newBase ++ (base ++ ['x']).drop oldBase.length ++ ['.'] ++ lower e := by
    rw [List.append_assoc _ ['.']]
    rfl
  have hname : claimName base e = base ++ ['x', '.'] ++ e := by simp [claimName]
  rw [htarget, hname] at heq
  exact (claimExts_lower e he).2 (List.append_inj_right' heq (List.length_map _))

/-- One of the extensions has neither of two properties that no two of them share. -/
theorem exists_claimExt {P Q : Text → Prop}
    (hP : ∀ e ∈ claimExts, ∀ e' ∈ claimExts, P e → P e' → e = e')
    (hQ : ∀ e ∈ claimExts, ∀ e' ∈ claimExts, Q e → Q e' → e = e') :
    ∃ e ∈ claimExts, ¬P e ∧ ¬Q e := by
  have hne : of "SRT" ≠ of "ASS" ∧ of "SRT" ≠ of "SSA" ∧ of "ASS" ≠ of "SSA" := by decide
  have hmem : of "SRT" ∈ claimExts ∧ of "ASS" ∈ claimExts ∧ of "SSA" ∈ claimExts := by decide
  by_contra hnone
  push Not at hnone
  have hPQ : ∀ e ∈ claimExts, P e ∨ Q e := fun e he => or_iff_not_imp_left.mpr (hnone e he)
  -- of three extensions, two share a property
  rcases hPQ _ hmem.1 with h₁ | h₁ <;> rcases hPQ _ hmem.2.1 with h₂ | h₂ <;>
    rcases hPQ _ hmem.2.2 with h₃ | h₃
  · exact hne.1 (hP _ hmem.1 _ hmem.2.1 h₁ h₂)
  · exact hne.1 (hP _ hmem.1 _ hmem.2.1 h₁ h₂)
  · exact hne.2.1 (hP _ hmem.1 _ hmem.2.2 h₁ h₃)
  · exact hne.2.2 (hQ _ hmem.2.1 _ hmem.2.2 h₂ h₃)
  · exact hne.2.2 (hP _ hmem.2.1 _ hmem.2.2 h₂ h₃)
  · exact hne.2.1 (hQ _ hmem.1 _ hmem.2.2 h₁ h₃)
  · exact hne.1 (hQ _ hmem.1 _ hmem.2.1 h₁ h₂)
  · exact hne.1 (hQ _ hmem.1 _ hmem.2.1 h₁ h₂)

/-- Where the paths are below one directory, at most one name leads further. -/
theorem name_eq_of_prefix {d l : List Text} {m m' : Text} (h : d ++ [m] <+: l)
    (h' : d ++ [m'] <+: l) : m = m' := by
  have hle : d ++ [m] <+: d ++ [m'] := List.prefix_of_prefix_length_le h h' (by simp)
  have heq := hle.eq_of_length (by simp)
  simpa using heq

/-! ## Storages -/

/-- The main file `o` and the subtitle `a` in the directory `D`, to be moved to `v` and `t` in the
directory `E`. -/
structure Roads (D E : List Text) (o v a t : Text) : Prop where
  names : a ≠ o ∧ t ≠ v
  below : ¬D ++ [o] <+: E ++ [v]
  above : ¬E ++ [v] <+: D ++ [o]
  aside : ¬D ++ [a] <+: E ++ [v]
  open' : ¬E ++ [t] <+: D
  apart : D ++ [a] ≠ E ++ [t]

namespace Roads

variable {D E : List Text} {o v a t : Text} (h : Roads D E o v a t) (main aux : MovableFile)

include h

theorem main_ne : D ++ [o] ≠ D ++ [a] := fun heq => h.names.1 (by simpa using heq.symm)

/-- The storage with the two files. -/
def start : MovableTree where
  files := [(D ++ [o], main), (D ++ [a], aux)]
  nodup := by simpa using h.main_ne

theorem free : (h.start main aux).isThere (E ++ [v]) = false := by
  refine FileTree.isThere_eq_false (by simp) ?_ (by simp [start])
  intro f hf
  rw [start, List.mem_cons, List.mem_singleton] at hf
  rcases hf with rfl | rfl
  · exact h.above
  · intro hle
    rcases List.prefix_concat_iff.mp hle with heq | hle
    · exact h.aside (heq ▸ List.prefix_rfl)
    · exact h.above (hle.trans (List.prefix_append _ _))

theorem not_above : ∀ f ∈ (h.start main aux).files, ¬f.1 <+: E := by
  intro f hf hle
  have hle' := hle.trans (List.prefix_append E [v])
  rw [start, List.mem_cons, List.mem_singleton] at hf
  rcases hf with rfl | rfl
  · exact h.below hle'
  · exact h.aside hle'

/-- The directory is made. -/
def made : MovableTree := { h.start main aux with dirs := [E] }

theorem mkdir_start : (h.start main aux).mkdir E = some (h.made main aux) :=
  FileTree.mkdir_eq_some (h.not_above main aux)

theorem free_made : (h.made main aux).isThere (E ++ [v]) = false :=
  FileTree.isThere_mkdir (h.mkdir_start main aux) (fun hle => absurd hle.length_le (by simp))
    (h.free main aux)

/-- The main file is moved. -/
theorem exists_moved : ∃ tree, (h.made main aux).move (D ++ [o]) (E ++ [v]) = some tree ∧
    tree.files = [(E ++ [v], main), (D ++ [a], aux)] ∧ tree.dirs = [D, E] := by
  have hfile : (h.made main aux).isFile (D ++ [o]) = true := by
    rw [FileTree.isFile_iff]
    exact ⟨_, List.mem_cons_self, rfl⟩
  have hfree := h.free_made main aux
  have hnot : ¬D ++ [o] <+: E := fun hle => h.below (hle.trans (List.prefix_append _ _))
  obtain ⟨tree, htree, hdirs⟩ := FileTree.exists_move hfile hfree h.below
    (by rw [List.dropLast_concat]; exact h.not_above main aux)
  refine ⟨tree, htree, ?_, ?_⟩
  · rw [FileTree.files_of_move htree (FileTree.isFile_of_not_there hfree),
      FileTree.destination_of_not_there hfree]
    have haux : ¬D ++ [o] <+: D ++ [a] := by
      rw [List.prefix_append_right_inj]
      intro hle
      have heq : o = a := by simpa using hle
      exact h.names.1 heq.symm
    simp [made, start, FileTree.relocate, haux]
  · simp [hdirs, made, FileTree.relocate, hnot]

variable {tree : MovableTree} (hfiles : tree.files = [(E ++ [v], main), (D ++ [a], aux)])
  (hdirs : tree.dirs = [D, E])

include hfiles hdirs

/-- There is room for the subtitle. -/
theorem free_moved : tree.isThere (E ++ [t]) = false := by
  have hdirE : ¬E ++ [t] <+: E := fun hle => absurd hle.length_le (by simp)
  refine FileTree.isThere_eq_false (by simp) ?_ ?_
  · intro f hf
    rw [hfiles, List.mem_cons, List.mem_singleton] at hf
    rcases hf with rfl | rfl
    · rw [List.prefix_append_right_inj]
      intro hle
      exact h.names.2 (by simpa using hle)
    · intro hle
      rcases List.prefix_concat_iff.mp hle with heq | hle
      · exact h.apart heq.symm
      · exact h.open' hle
  · rw [hdirs]
    simpa using ⟨h.open', hdirE⟩

omit hdirs

/-- The subtitle is listed. -/
theorem exists_list : ∃ l, tree.list D = some l ∧ (a, false) ∈ l := by
  have hfile : tree.isFile (D ++ [a]) = true := by
    rw [FileTree.isFile_iff, hfiles]
    exact ⟨_, List.mem_cons_of_mem _ List.mem_cons_self, rfl⟩
  have hnot : ¬tree.isFile D = true := by
    intro hdir
    obtain ⟨f, hf, hpath⟩ := FileTree.isFile_iff.mp hdir
    rw [hfiles, List.mem_cons, List.mem_singleton] at hf
    rcases hf with rfl | rfl
    · exact h.above (hpath ▸ List.prefix_append _ _)
    · exact absurd (congrArg List.length hpath) (by simp)
  have hdir : tree.isDir D = true := by
    rw [FileTree.isDir, decide_eq_true_eq]
    refine ⟨hnot, .inr (.inl ⟨(D ++ [a], aux), ?_, List.prefix_append _ _⟩)⟩
    rw [hfiles]
    exact List.mem_cons_of_mem _ List.mem_cons_self
  obtain ⟨l, hl⟩ : ∃ l, tree.list D = some l := by
    rw [FileTree.list, if_pos hdir]
    exact ⟨_, rfl⟩
  exact ⟨l, hl, (FileTree.mem_list_iff hl a).mpr hfile⟩

/-- The directory is made again, and the subtitle moved into it. -/
theorem exists_taken (hfree : tree.isThere (E ++ [t]) = false) : ∃ tree₁ tree₂,
    tree.mkdir E = some tree₁ ∧ tree₁.move (D ++ [a]) (E ++ [t]) = some tree₂ ∧
      tree₂.isFile (D ++ [a]) = false := by
  have hnotA : ¬D ++ [a] <+: E := fun hle => h.aside (hle.trans (List.prefix_append _ _))
  have habove : ∀ f ∈ tree.files, ¬f.1 <+: E := by
    intro f hf
    rw [hfiles, List.mem_cons, List.mem_singleton] at hf
    rcases hf with rfl | rfl
    · exact fun hle => absurd hle.length_le (by simp)
    · exact hnotA
  have hmkdir := FileTree.mkdir_eq_some habove
  have hfree₁ := FileTree.isThere_mkdir hmkdir (fun hle => absurd hle.length_le (by simp)) hfree
  have hfile : FileTree.isFile { tree with dirs := E :: tree.dirs } (D ++ [a]) = true := by
    rw [FileTree.isFile_iff, hfiles]
    exact ⟨_, List.mem_cons_of_mem _ List.mem_cons_self, rfl⟩
  have hbelow : ¬D ++ [a] <+: E ++ [t] := by
    intro hle
    rcases List.prefix_concat_iff.mp hle with heq | hle
    · exact h.apart heq
    · exact hnotA hle
  obtain ⟨tree₂, hmove, -⟩ := FileTree.exists_move hfile hfree₁ hbelow
    (by rw [List.dropLast_concat]; exact habove)
  refine ⟨_, tree₂, hmkdir, hmove, ?_⟩
  rw [Bool.eq_false_iff]
  intro hgone
  obtain ⟨f, hf, hpath⟩ := FileTree.isFile_iff.mp hgone
  rw [FileTree.files_of_move hmove (FileTree.isFile_of_not_there hfree₁),
    FileTree.destination_of_not_there hfree₁, hfiles, List.mem_map] at hf
  obtain ⟨g, hg, rfl⟩ := hf
  rw [List.mem_cons, List.mem_singleton] at hg
  rcases hg with rfl | rfl
  · dsimp only [FileTree.relocate] at hpath
    rw [if_neg h.aside] at hpath
    exact h.aside (hpath ▸ List.prefix_rfl)
  · simp only [FileTree.relocate, List.prefix_rfl, if_true] at hpath
    exact h.apart (by simpa using hpath.symm)

end Roads

/-! ## What was seen -/

/-- In some state so far the file was not there. -/
def SeenWithout {S : Type} (s : S) (p : List Text) (w : RenameWorld S) : Prop :=
  ∃ t ∈ w.passed, (t s).isFile p = false

namespace RenameEnv

section Seen

variable {S α : Type} [DecidableEq S] {env : RenameEnv S} {b : StorageHandle S} {s₀ : S}
  {p : List Text} {oldPath newPath : Text} {item : RenameItem} {aux : List (Text × Text)}

omit [DecidableEq S] in
theorem seen_repo {f : RenameRows → Option (α × RenameRows)} :
    Keeps (SeenWithout s₀ p) (env.repo f) := triple_repo (R := fun _ passed =>
  ∃ t ∈ passed, (t s₀).isFile p = false)

theorem seen_storage {f : ℕ → MovableTree → Option (α × MovableTree)} :
    Keeps (SeenWithout s₀ p) (env.storage b f) := by
  refine triple_call (fun _ _ hw => hw) ?_ (fun _ hw => hw) fun _ _ hw => hw
  intro n w a w' hw hf
  rw [Option.map_eq_some_iff] at hf
  obtain ⟨⟨a', t⟩, -, heq⟩ := hf
  cases heq
  obtain ⟨t', ht', hgone⟩ := hw
  exact ⟨t', List.mem_append_left _ ht', hgone⟩

theorem seen_attempt_move {dir src dst : Text} :
    Keeps (SeenWithout s₀ p) (do env.mkdir b dir; env.move b src dst).attempt :=
  keeps_attempt (keeps_bind seen_storage fun _ => seen_storage)

theorem seen_moveAuxEntry (moved : List (Text × Text)) (entry : Text × Bool) :
    Keeps (SeenWithout s₀ p) (env.moveAuxEntry b oldPath newPath moved entry) := by
  rw [moveAuxEntry]
  split
  · exact keeps_pure moved
  · refine keeps_bind seen_storage fun taken => ?_
    cases taken with
    | true => exact keeps_pure moved
    | false =>
      refine keeps_bind seen_attempt_move fun r => ?_
      cases r with
      | ok _ => exact keeps_pure _
      | error _ => exact keeps_pure _

theorem seen_recordItem : Keeps (SeenWithout s₀ p) (env.recordItem b item oldPath newPath aux) := by
  refine keeps_bind seen_repo fun _ => keeps_bind seen_storage fun _ => ?_
  refine keeps_bind seen_repo fun _ => keeps_bind ?_ fun _ => seen_repo
  exact keeps_bind seen_storage fun _ => seen_repo

theorem seen_moveBack {new old : Text} : Keeps (SeenWithout s₀ p) (env.moveBack b new old) := by
  refine keeps_bind seen_attempt_move fun r => ?_
  cases r with
  | ok _ => exact keeps_pure true
  | error _ => exact keeps_pure false

theorem seen_rollbackAux (ok : Bool) (a : Text × Text) :
    Keeps (SeenWithout s₀ p) (env.rollbackAux b ok a) := by
  refine keeps_bind seen_storage fun newExists => keeps_bind seen_storage fun oldExists => ?_
  cases newExists with
  | false => exact keeps_pure ok
  | true =>
    cases oldExists with
    | true => exact keeps_pure false
    | false => exact keeps_bind seen_moveBack fun _ => keeps_pure _

theorem seen_rollbackMain (ok : Bool) :
    Keeps (SeenWithout s₀ p) (env.rollbackMain b oldPath newPath ok) := by
  refine keeps_bind seen_storage fun newExists => keeps_bind seen_storage fun oldExists => ?_
  cases newExists with
  | false => exact keeps_pure _
  | true =>
    cases oldExists with
    | true => exact keeps_pure false
    | false => exact keeps_bind seen_moveBack fun _ => keeps_pure _

theorem seen_recoverItem (e : Text) :
    Keeps (SeenWithout s₀ p) (env.recoverItem b item oldPath newPath aux e) := by
  refine keeps_bind (keeps_attempt seen_repo) fun _ => ?_
  refine keeps_bind (keeps_attempt seen_repo) fun _ => keeps_bind ?_ fun _ => seen_repo
  exact keeps_bind (keeps_foldlM seen_rollbackAux true aux.reverse) seen_rollbackMain

end Seen

/-! ## A calm run -/

section Calm

variable {α : Type} {env : RenameEnv Unit} (hcalm : ∀ n, env.fault n = .none)
  {b : StorageHandle Unit} {t t' : MovableTree} {E : Text → RenameWorld Unit → Prop}

/-- The files are these. -/
def At (t : MovableTree) (w : RenameWorld Unit) : Prop := w.trees () = t

include hcalm

theorem at_storage {f : ℕ → MovableTree → Option (α × MovableTree)} {g : ℕ → α}
    (h : ∀ n, f n t = some (g n, t')) : Triple (At t) (env.storage b f)
      (fun a w => (∃ n, a = g n) ∧ At t' w ∧ ∃ t'' ∈ w.passed, t'' () = t') E := by
  intro w hw
  have hw' : w.trees b.store = t := hw
  simp only [storage, call, hcalm, hw', h, Option.map_some]
  exact ⟨⟨_, rfl⟩, by simp [At], _, List.mem_append_right _ List.mem_cons_self, by simp⟩

theorem at_repo {f : RenameRows → Option (α × RenameRows)} (h : ∀ r, ∃ x, f r = some x) :
    Triple (At t) (env.repo f) (fun _ => At t) E := by
  intro w hw
  obtain ⟨x, hx⟩ := h w.rows
  simp only [repo, call, hcalm, hx, Option.map_some]
  exact hw

theorem at_ask {f : ℕ → α} :
    Triple (At t) (env.ask f) (fun a w => (∃ n, a = f n) ∧ At t w) E := by
  intro w hw
  simp only [ask, call, hcalm]
  exact ⟨⟨_, rfl⟩, hw⟩

theorem at_question {f : ℕ → MovableTree → Option (α × MovableTree)} {g : ℕ → α}
    (h : ∀ n, f n t = some (g n, t)) : Triple (At t) (env.storage b f)
      (fun a w => (∃ n, a = g n) ∧ At t w) E :=
  (at_storage hcalm h).weaken (fun _ hw => hw) (fun _ _ hw => ⟨hw.1, hw.2.1⟩) fun _ _ hw => hw

theorem at_pathExists {q : Text} {taken : Bool} (h : t.isThere (b.place q) = taken) :
    Triple (At t) (env.pathExists b q) (fun a w => a = taken ∧ At t w) E := by
  refine (at_question hcalm (g := fun _ => taken) fun n => by rw [h]).weaken
    (fun _ hw => hw) ?_ fun _ _ hw => hw
  rintro a w ⟨⟨n, ha⟩, hw⟩
  exact ⟨ha, hw⟩

theorem at_mkdir {q : Text} (h : t.mkdir (b.place q) = some t') :
    Triple (At t) (env.mkdir b q) (fun _ => At t') E := by
  refine (at_storage hcalm (g := fun _ => ()) fun n => by rw [h]; rfl).weaken
    (fun _ hw => hw) (fun _ _ hw => hw.2.1) fun _ _ hw => hw

theorem at_move {src dst : Text} (h : t.move (b.place src) (b.place dst) = some t') :
    Triple (At t) (env.move b src dst)
      (fun _ w => At t' w ∧ ∃ t'' ∈ w.passed, t'' () = t') E := by
  refine (at_storage hcalm (g := fun _ => ()) fun n => by rw [h]; rfl).weaken
    (fun _ hw => hw) (fun _ _ hw => hw.2) fun _ _ hw => hw

theorem at_acquireAll (hfree : ∀ n key, env.lockFree n key = true) (keys : List Text) :
    Triple (At t) (env.acquireAll keys) (fun free w => free = true ∧ At t w) E := by
  induction keys with
  | nil => exact triple_pure true fun _ hw => ⟨rfl, hw⟩
  | cons key keys ih =>
    refine triple_bind (at_ask hcalm) fun free => ?_
    cases free with
    | true => exact ih.weaken (fun _ hw => hw.2) (fun _ _ hw => hw) fun _ _ hw => hw
    | false =>
      rintro w ⟨⟨n, hn⟩, -⟩
      rw [hfree] at hn
      cases hn

end Calm

/-! ## The subtitle is taken -/

/-- The main file as the plan saw it. -/
def plannedFile (item : RenameItem) : MovableFile where
  content := []
  size := item.oldSize.getD 0
  mtime := item.oldMtime.getD 0

theorem not_fileChanged (item : RenameItem) :
    ¬FileChanged item (plannedFile item).size (plannedFile item).mtime := by
  rintro (⟨n, hn, hne⟩ | ⟨m, hm, hne⟩)
  · exact hne (by simp [plannedFile, Option.mem_def.mp hn])
  · simp only [plannedFile, Option.mem_def.mp hm, Option.getD_some, sub_self, or_self] at hne
    exact absurd hne (by decide)

section Taken

variable {env : RenameEnv Unit} {b : StorageHandle Unit} {oldPath newPath a t : Text}
  {D E : List Text} {o v : Text} (h : Roads D E o v a t) {main aux : MovableFile}
  {tree : MovableTree} {item : RenameItem}

/-- No call fails, locks are free, and an entry is listed before the others. -/
structure Favours (env : RenameEnv Unit) (a : Text) : Prop where
  calm : ∀ n, env.fault n = .none
  lockFree : ∀ n key, env.lockFree n key = true
  first : ∀ n l, (a, false) ∈ l → env.arrange n l = (a, false) :: l.erase (a, false)

/-- The paths are those of the item. -/
structure OnPaths (b : StorageHandle Unit) (oldPath newPath a t : Text) (D E : List Text)
    (o v : Text) : Prop where
  regular : b.Regular
  oldPlace : b.place oldPath = D ++ [o]
  newPlace : b.place newPath = E ++ [v]
  oldDir : b.place (dirnameOf oldPath) = D
  newDir : b.place (dirnameOf newPath) = E
  name : ProperName a
  target : ProperName t
  claimed : ∀ path, basenameOf path = a → auxTarget (baseOf oldPath) (baseOf newPath) path = some t

/-- The entry of a file of the name in the directory. -/
structure IsEntry (b : StorageHandle Unit) (D : List Text) (a : Text) (entry : Text × Bool) :
    Prop where
  plain : entry.2 = false
  name : basenameOf entry.1 = a
  place : b.place entry.1 = D ++ [a]

variable (henv : Favours env a) (hpaths : OnPaths b oldPath newPath a t D E o v)

include h henv hpaths

theorem taken_entry (hfiles : tree.files = [(E ++ [v], main), (D ++ [a], aux)])
    (hdirs : tree.dirs = [D, E]) {entry : Text × Bool} (hentry : IsEntry b D a entry) :
    Triple (At tree) (env.moveAuxEntry b oldPath newPath [] entry)
      (fun _ => SeenWithout () (D ++ [a])) fun _ => SeenWithout () (D ++ [a]) := by
  have hcalm := henv.calm
  have htarget : b.place (Path.join (dirnameOf newPath) t) = E ++ [t] := by
    rw [hpaths.regular.place_join _ _ (not_mem_dirnameOf _) hpaths.target, hpaths.newDir]
  have hfree := h.free_moved main aux hfiles hdirs
  obtain ⟨tree₁, tree₂, hmkdir, hmove, hgone⟩ := h.exists_taken main aux hfiles hfree
  rw [moveAuxEntry]
  simp only [hentry.plain, Bool.false_eq_true, if_false, hpaths.claimed entry.1 hentry.name]
  rw [← htarget] at hfree hmove
  rw [← hentry.place] at hmove
  rw [← hpaths.newDir] at hmkdir
  refine triple_bind (at_pathExists hcalm hfree) fun taken => triple_and_left ?_
  rintro rfl
  have hmoved : Triple (At tree) (do
        env.mkdir b (dirnameOf newPath)
        env.move b entry.1 (Path.join (dirnameOf newPath) t))
      (fun _ => SeenWithout () (D ++ [a])) fun _ => SeenWithout () (D ++ [a]) := by
    refine triple_bind (at_mkdir hcalm hmkdir) fun _ => (at_move hcalm hmove).weaken
      (fun _ hw => hw) ?_ fun _ _ hw => hw
    rintro _ w ⟨-, t', ht', heq⟩
    exact ⟨t', ht', by rw [heq, hgone]⟩
  refine triple_bind (triple_attempt hmoved) fun r => ?_
  cases r with
  | ok _ => exact triple_pure _ fun _ hw => hw
  | error _ => exact triple_pure _ fun _ hw => hw

/-- The entry is the first that is listed. -/
theorem taken_entries (hfiles : tree.files = [(E ++ [v], main), (D ++ [a], aux)])
    (hdirs : tree.dirs = [D, E]) {entry : Text × Bool} (hentry : IsEntry b D a entry)
    (rest : List (Text × Bool)) :
    Triple (At tree) ((entry :: rest).foldlM (env.moveAuxEntry b oldPath newPath) [])
      (fun _ => SeenWithout () (D ++ [a])) fun _ => SeenWithout () (D ++ [a]) := by
  rw [List.foldlM_cons]
  exact triple_bind (taken_entry h henv hpaths hfiles hdirs hentry) fun moved =>
    keeps_foldlM seen_moveAuxEntry moved rest

theorem taken_moveAux (hfiles : tree.files = [(E ++ [v], main), (D ++ [a], aux)])
    (hdirs : tree.dirs = [D, E]) :
    Triple (At tree) (env.moveAux b oldPath newPath)
      (fun _ => SeenWithout () (D ++ [a])) fun _ => SeenWithout () (D ++ [a]) := by
  have hcalm := henv.calm
  have hreg := hpaths.regular
  have hplain := not_mem_dirnameOf oldPath
  obtain ⟨l, hl, hmem⟩ := h.exists_list main aux hfiles
  rw [← hpaths.oldDir] at hl
  have hlist : Triple (At tree) (env.listDir b (dirnameOf oldPath))
      (fun entries w => (∃ entry rest, entries = entry :: rest ∧ IsEntry b D a entry) ∧ At tree w)
      fun _ => SeenWithout () (D ++ [a]) := by
    refine (at_question hcalm
      (g := fun _ => (b.childPath (dirnameOf oldPath) a, false) ::
        (l.erase (a, false)).map fun e => (b.childPath (dirnameOf oldPath) e.1, e.2))
      fun n => ?_).weaken (fun _ hw => hw) ?_ fun _ _ hw => hw
    · rw [hl, Option.map_some, henv.first n l hmem]
      rfl
    · rintro _ w ⟨⟨n, rfl⟩, hw⟩
      refine ⟨⟨_, _, rfl, rfl, hreg.basenameOf_childPath _ a hplain hpaths.name, ?_⟩, hw⟩
      rw [hreg.place_childPath _ a hplain hpaths.name, hpaths.oldDir]
  refine triple_bind (triple_attempt hlist) fun entries => ?_
  cases entries with
  | error _ => exact triple_pure [] fun _ hw => hw
  | ok entries =>
    refine triple_and_left ?_
    rintro ⟨entry, rest, rfl, hentry⟩
    exact taken_entries h henv hpaths hfiles hdirs hentry rest

theorem taken_placeItem : Triple (At (h.start main aux))
    (env.placeItem b item oldPath newPath)
    (fun _ => SeenWithout () (D ++ [a])) fun _ => SeenWithout () (D ++ [a]) := by
  have hcalm := henv.calm
  obtain ⟨tree, htree, hfiles, hdirs⟩ := h.exists_moved main aux
  have hfree : (h.start main aux).isThere (b.place newPath) = false := by
    rw [hpaths.newPlace]
    exact h.free main aux
  have hmkdir : (h.start main aux).mkdir (b.place (dirnameOf newPath)) =
      some (h.made main aux) := by
    rw [hpaths.newDir]
    exact h.mkdir_start main aux
  have hmove : (h.made main aux).move (b.place oldPath)
      (b.place newPath) = some tree := by
    rw [hpaths.oldPlace, hpaths.newPlace, htree]
  refine triple_bind (at_pathExists hcalm hfree) fun taken => triple_and_left ?_
  rintro rfl
  refine triple_bind (at_repo hcalm fun _ => ⟨_, rfl⟩) fun _ => ?_
  refine triple_bind (at_mkdir hcalm hmkdir) fun _ => triple_bind (at_move hcalm hmove) fun _ => ?_
  refine triple_bind ((taken_moveAux h henv hpaths hfiles hdirs).weaken (fun _ hw => hw.1)
    (fun _ _ hw => hw) fun _ _ hw => hw) fun aux => triple_pure (some aux) fun _ hw => hw

theorem taken_renameItem : Triple (At (h.start main aux))
    (env.renameItem b item oldPath newPath)
    (fun _ => SeenWithout () (D ++ [a])) fun _ => SeenWithout () (D ++ [a]) := by
  refine triple_bind (triple_attempt (taken_placeItem h henv hpaths)) fun r => ?_
  cases r with
  | error e => exact seen_recoverItem e
  | ok placed =>
    cases placed with
    | none => exact triple_pure () fun _ hw => hw
    | some aux => exact keeps_handle seen_recordItem seen_recoverItem

theorem taken_checkItem : Triple (At (h.start (plannedFile item) aux))
    (env.checkItem b item oldPath newPath)
    (fun _ => SeenWithout () (D ++ [a])) fun _ => SeenWithout () (D ++ [a]) := by
  have hcalm := henv.calm
  have hread : (h.start (plannedFile item) aux).read (b.place oldPath) =
      some (plannedFile item) := by
    simp [hpaths.oldPlace, Roads.start, FileTree.read]
  have hfree : (h.start (plannedFile item) aux).isThere (b.place newPath) =
      false := by
    rw [hpaths.newPlace]
    exact h.free (plannedFile item) aux
  have hstat : Triple (At (h.start (plannedFile item) aux))
      (env.stat b oldPath)
      (fun stat w => stat = some ((plannedFile item).size, (plannedFile item).mtime) ∧
        At (h.start (plannedFile item) aux) w) fun _ => SeenWithout () (D ++ [a]) := by
    refine (at_question hcalm
      (g := fun _ => some ((plannedFile item).size, (plannedFile item).mtime))
      fun n => by rw [hread]).weaken (fun _ hw => hw) ?_ fun _ _ hw => hw
    rintro _ w ⟨⟨n, rfl⟩, hw⟩
    exact ⟨rfl, hw⟩
  refine triple_bind hstat fun stat => triple_and_left ?_
  rintro rfl
  dsimp only
  rw [if_neg (not_fileChanged item)]
  refine triple_bind (at_pathExists hcalm hfree) fun taken => triple_and_left ?_
  rintro rfl
  refine triple_bind (at_acquireAll hcalm henv.lockFree _) fun free => triple_and_left ?_
  rintro rfl
  exact taken_renameItem h henv hpaths

end Taken

/-- Locks are free, the backend is there at one moment, and one entry is listed before the
others. -/
def claimEnv (k : ℕ) (a : Text) : RenameEnv Unit where
  resolve n _ := if n = k then some (posixHandle ()) else none
  arrange _ l := if (a, false) ∈ l then (a, false) :: l.erase (a, false) else l
  arrange_perm _ l := by
    split_ifs with h
    · exact (List.perm_cons_erase h).symm
    · exact .refl l


section Executions

variable {k jobId : ℕ} {a : Text} {w : RenameWorld Unit}

theorem favours_claimEnv (k : ℕ) (a : Text) : Favours (claimEnv k a) a :=
  ⟨fun _ => rfl, fun _ _ => rfl, fun _ _ h => if_pos h⟩

theorem regular_claimEnv {n : ℕ} {id : Text} {b : StorageHandle Unit}
    (h : (claimEnv k a).resolve n id = some b) : b.Regular := by
  simp only [claimEnv] at h
  split_ifs at h
  cases h
  exact regular_posixHandle ()

/-- While the backend is away, an item fails and nothing moves. -/
theorem run_without_backend (item : RenameItem) (hk : w.clock ≠ k) :
    ∃ rows, ((claimEnv k a).executeItem item).run w =
      (.ok (), { w with clock := w.clock + 2, rows }) ∧ rows.jobs = w.rows.jobs := by
  have haway : ((claimEnv k a).resolveBackend item.backendId).run w =
      (.ok none, { w with clock := w.clock + 1 }) := by
    have hrun : ((claimEnv k a).resolveBackend item.backendId).run w =
        (.ok ((claimEnv k a).resolve w.clock (normalizeBackend item.backendId)),
          { w with clock := w.clock + 1 }) := rfl
    rw [hrun]
    simp only [claimEnv, if_neg hk]
  exact ⟨_, run_bind_of_ok haway, rfl⟩

/-- A worker comes to an item, with the storages as they were. -/
theorem exists_execution (pre post : List RenameItem) (item : RenameItem)
    (hk : w.clock + 4 * pre.length + 1 = k) (hjob : w.rows.jobs jobId = some .running) :
    ∃ w', (item, w') ∈ (claimEnv k a).executions jobId (pre ++ item :: post) w ∧
      w'.trees = w.trees ∧ w'.clock = k := by
  have hstart : ∀ w : RenameWorld Unit, (do
      (claimEnv k a).maybeCancelled jobId
      (claimEnv k a).getJob jobId : Rename Unit (Option JobStatus)).run w =
        (.ok (w.rows.jobs jobId), { w with clock := w.clock + 1 }) := fun _ => rfl
  induction pre generalizing w with
  | nil =>
    rw [List.nil_append, executions, hstart, hjob]
    exact ⟨_, List.mem_cons_self, rfl, hk⟩
  | cons x pre ih =>
    rw [List.length_cons] at hk
    obtain ⟨rows, hrun, hrows⟩ := @run_without_backend k a { w with clock := w.clock + 1 } x
      (by dsimp only; omega)
    have hnext : (do
        (claimEnv k a).executeItem x
        (claimEnv k a).extendLock : Rename Unit Bool).run { w with clock := w.clock + 1 } =
          (.ok true, { w with clock := w.clock + 4, rows }) := run_bind_of_ok hrun
    obtain ⟨w', hmem, htrees, hclock⟩ := @ih { w with clock := w.clock + 4, rows }
      (by dsimp only; omega) (by dsimp only; rw [hrows, hjob])
    refine ⟨w', ?_, htrees, hclock⟩
    rw [List.cons_append, executions, hstart, hjob]
    dsimp only
    rw [if_neg (by decide), hnext]
    exact List.mem_cons_of_mem _ hmem

end Executions

/-- The item is executed while a subtitle of that name lies beside its main file. -/
theorem taken_executeItem {k : ℕ} {a t : Text} {D E : List Text} {o v : Text} {item : RenameItem}
    {aux : MovableFile} (h : Roads D E o v a t)
    (hpaths : OnPaths (posixHandle ()) (normPath item.oldPath) (normPath item.newPath) a t D E o v)
    (hroot : Path.isPathInPath (normPath item.root) (normPath item.oldPath) = true ∧
      Path.isPathInPath (normPath item.root) (normPath item.newPath) = true)
    {w : RenameWorld Unit} (hk : w.clock = k) (hw : w.trees () = h.start (plannedFile item) aux) :
    SeenWithout () (D ++ [a]) (((claimEnv k a).executeItem item).run w).2 := by
  have hthere : ((claimEnv k a).resolveBackend item.backendId).run w =
      (.ok (some (posixHandle ())), { w with clock := w.clock + 1 }) := by
    have hrun : ((claimEnv k a).resolveBackend item.backendId).run w =
        (.ok ((claimEnv k a).resolve w.clock (normalizeBackend item.backendId)),
          { w with clock := w.clock + 1 }) := rfl
    rw [hrun]
    simp only [claimEnv, if_pos hk]
  rw [executeItem, run_bind_of_ok hthere]
  dsimp only
  rw [if_neg (normPath_ne_nil _), if_neg]
  · exact (taken_checkItem h (favours_claimEnv k a) hpaths).final hw
  · rintro (hnil | hold | hnew)
    · exact normPath_ne_nil _ hnil
    · exact hold hroot.1
    · exact hnew hroot.2

end RenameEnv

/-! ## Exactly when -/

/-- What the planner makes sure of: the paths lie in the root, and neither below the other. -/
structure CanRename (item : RenameItem) : Prop where
  oldIn : Path.isPathInPath (normPath item.root) (normPath item.oldPath) = true
  newIn : Path.isPathInPath (normPath item.root) (normPath item.newPath) = true
  below : ¬Path.parts (normPath item.oldPath) <+: Path.parts (normPath item.newPath)
  above : ¬Path.parts (normPath item.newPath) <+: Path.parts (normPath item.oldPath)

/-- In every run every item takes only its own files along. -/
def KeepsOwnership (items : List FileItem) : Prop :=
  ∀ (S : Type) [DecidableEq S] (env : RenameEnv S),
    (∀ n id b, env.resolve n id = some b → b.Regular) →
      ∀ jobId w, ∀ x ∈ env.executions jobId (items.map FileItem.item) w,
        env.TakesOnlyItsOwn items x.1 x.2

theorem keepsOwnership_of_noneContinues {items : List FileItem} (h : NoneContinues items) :
    KeepsOwnership items := by
  intro S _ env henv jobId w x hx
  obtain ⟨y, hy, heq⟩ := List.mem_map.mp (RenameEnv.fst_mem_of_mem_executions hx)
  rw [← heq]
  exact RenameEnv.takesOnlyItsOwn henv h hy x.2

section Directory

variable {b : StorageHandle Unit} {x : FileItem} {base e t : Text} {D E : List Text}

/-- The paths of an item, and those of a subtitle it takes along, as a backend keeps them. -/
theorem onPaths_of_claimed (hb : b.Regular) (hname : ProperName (claimName base e))
    (hclaimed : ∀ path, basenameOf path = claimName base e →
      auxTarget (baseOf x.item.oldPath) (baseOf x.item.newPath) path = some t)
    (hD : b.place (dirnameOf x.item.oldPath) = D) (hE : b.place (dirnameOf x.item.newPath) = E) :
    RenameEnv.OnPaths b (normPath x.item.oldPath) (normPath x.item.newPath) (claimName base e) t
      D E (basenameOf x.item.oldPath) (basenameOf x.item.newPath) := by
  have hold := hb.place_eq (normPath x.item.oldPath) (not_mem_normPath _) (by simpa using x.old)
  have hnew := hb.place_eq (normPath x.item.newPath) (not_mem_normPath _) (by simpa using x.new)
  rw [dirnameOf_normPath, basenameOf_normPath] at hold hnew
  have hbaseOf : ∀ path, basenameOf path = claimName base e →
      auxTarget (baseOf (normPath x.item.oldPath)) (baseOf (normPath x.item.newPath)) path =
        some t := by
    intro path hpath
    rw [baseOf_normPath, baseOf_normPath]
    exact hclaimed path hpath
  have hpath := hb.basenameOf_childPath [] _ (by simp) hname
  exact {
    regular := hb
    oldPlace := by rw [hold, hD]
    newPlace := by rw [hnew, hE]
    oldDir := by rw [dirnameOf_normPath, hD]
    newDir := by rw [dirnameOf_normPath, hE]
    name := hname
    target := proper_auxTarget (hclaimed _ hpath) (plain_baseOf _)
    claimed := hbaseOf }

/-- A directory with a main file and a subtitle that goes on behind a longer name. -/
theorem exists_roads (hb : b.Regular)
    (hbelow : ¬b.place (normPath x.item.oldPath) <+: b.place (normPath x.item.newPath))
    (habove : ¬b.place (normPath x.item.newPath) <+: b.place (normPath x.item.oldPath))
    (hdot : baseOf x.item.oldPath ++ ['.'] <+: base) (hbase : '/' ∉ base ∧ '\\' ∉ base) :
    ∃ e t D E, Roads D E (basenameOf x.item.oldPath) (basenameOf x.item.newPath)
        (claimName base e) t ∧
      RenameEnv.OnPaths b (normPath x.item.oldPath) (normPath x.item.newPath)
        (claimName base e) t D E (basenameOf x.item.oldPath) (basenameOf x.item.newPath) := by
  have hold := hb.place_eq (normPath x.item.oldPath) (not_mem_normPath _) (by simpa using x.old)
  have hnew := hb.place_eq (normPath x.item.newPath) (not_mem_normPath _) (by simpa using x.new)
  rw [dirnameOf_normPath, basenameOf_normPath] at hold hnew
  generalize hD : b.place (dirnameOf x.item.oldPath) = D at hold
  generalize hE : b.place (dirnameOf x.item.newPath) = E at hnew
  rw [hold, hnew] at hbelow habove
  obtain ⟨e, he, haside, hopen⟩ := exists_claimExt
    (P := fun e => D ++ [claimName base e] <+: E ++ [basenameOf x.item.newPath])
    (Q := fun e => E ++ [claimTarget (baseOf x.item.oldPath) (baseOf x.item.newPath) base e] <+: D)
    (fun e _ e' _ h h' => by simpa [claimName] using name_eq_of_prefix h h')
    (fun e he e' he' h h' => claimExts_lower_inj e he e' he'
      (by simpa [claimTarget, lower] using name_eq_of_prefix h h'))
  have hclaimed : ∀ path, basenameOf path = claimName base e →
      auxTarget (baseOf x.item.oldPath) (baseOf x.item.newPath) path =
        some (claimTarget (baseOf x.item.oldPath) (baseOf x.item.newPath) base e) :=
    fun path hpath => auxTarget_claimName hbase.1 hdot he hpath
  have hroads : Roads D E (basenameOf x.item.oldPath) (basenameOf x.item.newPath)
      (claimName base e) (claimTarget (baseOf x.item.oldPath) (baseOf x.item.newPath) base e) := by
    refine ⟨⟨claimName_ne_basenameOf hdot, claimTarget_ne_basenameOf hdot⟩, hbelow, habove, haside,
      hopen, fun heq => ?_⟩
    exact claimTarget_ne_claimName he (List.append_singleton_inj.mp heq).2.symm
  have hname := proper_claimName hbase he
  exact ⟨e, _, D, E, hroads, onPaths_of_claimed hb hname hclaimed hD hE⟩

end Directory

/-- Where a name goes on behind that of an item which can be carried out, the item takes a subtitle
of the longer name along in some run. -/
theorem not_keepsOwnership {items : List FileItem} {x m : FileItem} (hx : x ∈ items)
    (hm : m ∈ items) (hcan : CanRename x.item) (hsame : SameDirectory m.item x.item)
    (hdot : baseOf x.item.oldPath ++ ['.'] <+: baseOf m.item.oldPath) : ¬KeepsOwnership items := by
  intro hkeeps
  obtain ⟨e, t, D, E, hroads, hpaths⟩ := exists_roads (regular_posixHandle ()) hcan.below hcan.above
    hdot (plain_baseOf m.item.oldPath)
  obtain ⟨pre, post, hitems⟩ := List.append_of_mem (List.mem_map_of_mem (f := FileItem.item) hx)
  let start : RenameWorld Unit :=
    { trees := fun _ => hroads.start (RenameEnv.plannedFile x.item) { content := [] }
      rows := { jobs := fun _ => some .running, items := [] } }
  obtain ⟨w, hmem, htrees, hclock⟩ := @RenameEnv.exists_execution _ 0
    (claimName (baseOf m.item.oldPath) e) start pre post x.item rfl rfl
  rw [← hitems] at hmem
  have hdir : (posixHandle ()).place (dirnameOf x.item.oldPath) = D := by
    rw [← hpaths.oldDir, dirnameOf_normPath]
  have hfiles : ∀ n, (w.trees ()).isFile (D ++ [n]) = true ↔
      n = basenameOf x.item.oldPath ∨ n = claimName (baseOf m.item.oldPath) e := by
    intro n
    rw [htrees]
    simp [start, Roads.start, FileTree.isFile]
  have htakes := hkeeps Unit _ (fun _ _ _ => RenameEnv.regular_claimEnv) 0 start _ hmem
    (posixHandle ()) (if_pos hclock)
  simp only [hdir] at htakes
  have hproper : ∀ n, (w.trees ()).isFile (D ++ [n]) = true → ProperName n := by
    intro n hn
    rcases (hfiles n).mp hn with hmain | hclaimed
    · exact hmain ▸ x.old
    · exact hclaimed ▸ hpaths.name
  have hgone := RenameEnv.taken_executeItem hroads hpaths ⟨hcan.oldIn, hcan.newIn⟩
    (w := { w with passed := [] }) hclock (congrFun htrees ())
  rcases htakes hproper _ ⟨(hfiles _).mpr (.inr rfl), hgone⟩ with hmain | howns
  · exact hroads.names.1 hmain
  · have hlonger := howns.longest m hm hsame (List.prefix_append _ _)
    have hlength := hdot.length_le
    rw [List.length_append, List.length_singleton] at hlength
    omega

/-- An item renames a file of a library directory within that directory. -/
def libraryItem (oldName newName : String) : RenameItem where
  id := 1
  jobId := 1
  backendId := of "nas"
  root := of "/lib"
  oldPath := of "/lib/" ++ of oldName
  newPath := of "/lib/" ++ of newName

/-- The plain cut of an episode. -/
def plainCut : FileItem where
  item := libraryItem "Show.S01E01.mkv" "Show - S01E01.mkv"
  old := by decide +kernel
  new := by decide +kernel

/-- The extended cut, the name of which goes on behind that of the plain one. -/
def extendedCut : FileItem where
  item := libraryItem "Show.S01E01.Extended.mkv" "Show - S01E01 (Extended).mkv"
  old := by decide +kernel
  new := by decide +kernel

end WolfNas
