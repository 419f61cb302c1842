import Mathlib.Data.List.Dedup
import Mathlib.Data.List.Nodup
import Mathlib.Data.Multiset.MapFold

/-!
# A tree of files

Files and directories, each at a path of names.  A directory is there where it was made, or
where something lies below it.  Moving takes a file, or a directory with all that lies below
it, to another path.

## Main definitions

* `FileTree N C` — names in `N`, contents in `C`; at most one file at a path.
* `FileTree.isFile`, `FileTree.isDir`, `FileTree.isThere`, `FileTree.list` — questions.
* `FileTree.mkdir`, `FileTree.move`, `FileTree.remove` — operations; each may be refused.
* `FileTree.contents` — the contents of all files.
* `FileTree.Sound`, `FileTree.moved` — no file lies below a file; files after one is moved.

## Main results

* `FileTree.contents_move` — moving to where no file is keeps all contents.
* `FileTree.contents_mkdir`, `FileTree.contents_remove` — so do making and removing a directory.
* `FileTree.files_move`, `FileTree.sound_move` — what moving one file does to the paths.
* `FileTree.mem_list_iff` — the names of files in a directory.
-/

/-- Files by their paths, and directories. -/
structure FileTree (N C : Type) where
  files : List (List N × C)
  dirs : List (List N) := []
  nodup : (files.map Prod.fst).Nodup

namespace FileTree

variable {N C : Type} [DecidableEq N] (t : FileTree N C) (p src dst : List N)

/-! ## Questions -/

/-- A file is at the path. -/
def isFile : Bool := p ∈ t.files.map Prod.fst

/-- A directory is at the path. -/
def isDir : Bool :=
  ¬t.isFile p ∧ (p = [] ∨ (∃ f ∈ t.files, p <+: f.1) ∨ ∃ d ∈ t.dirs, p <+: d)

/-- Something is at the path. -/
def isThere : Bool := t.isFile p || t.isDir p

/-- The content of the file at the path. -/
def read : Option C := (t.files.find? fun f => f.1 = p).map Prod.snd

/-- The names in a directory, and whether they are directories. -/
def list : Option (List (N × Bool)) :=
  if t.isDir p then
    let below := (t.files.map Prod.fst ++ t.dirs).filter fun q => p <+: q
    some ((below.filterMap fun q => (q.drop p.length).head?).dedup.map fun n =>
      (n, t.isDir (p ++ [n])))
  else none

/-! ## Operations -/

/-- Making a directory, with those above it; refused where one of them is a file. -/
def mkdir : Option (FileTree N C) :=
  if ∃ f ∈ t.files, f.1 <+: p then none else some { t with dirs := p :: t.dirs }

/-- The path a move takes the path to. -/
def relocate (src dst q : List N) : List N := if src <+: q then dst ++ q.drop src.length else q

/-- Where a move goes: into a directory that is there, and else to the path itself. -/
def destination : List N := if t.isDir dst then dst ++ src.getLast?.toList else dst

theorem relocate_injOn {l : List (List N × C)} (h : (l.map Prod.fst).Nodup) :
    (((l.filter fun f => ¬dst <+: f.1).map fun f => (relocate src dst f.1, f.2)).map
      Prod.fst).Nodup := by
  rw [List.map_map]
  refine List.Nodup.map_on ?_ (List.Nodup.filter _ (List.Nodup.of_map _ h))
  intro f hf g hg heq
  rw [List.mem_filter] at hf hg
  have hf' : ¬dst <+: f.1 := by simpa using hf.2
  have hg' : ¬dst <+: g.1 := by simpa using hg.2
  have hpath : f.1 = g.1 := by
    simp only [Function.comp_apply, relocate] at heq
    split_ifs at heq with hsf hsg hsg
    · have hdrop := List.append_cancel_left heq
      rw [← List.prefix_iff_eq_append.mp hsf, ← List.prefix_iff_eq_append.mp hsg, hdrop]
    · exact absurd ⟨_, heq⟩ hg'
    · exact absurd ⟨_, heq.symm⟩ hf'
    · exact heq
  exact List.inj_on_of_nodup_map h hf.1 hg.1 hpath

/-- Moving a file or a directory.  A file that is where it goes is lost; what cannot be moved
is refused, and so is a move into a directory that has something of this name. -/
def move : Option (FileTree N C) :=
  let goal := t.destination src dst
  if t.isThere src = false ∨ src <+: goal ∨ (t.isDir dst ∧ t.isThere goal) ∨
      (t.isDir src ∧ t.isFile goal) ∨ ∃ f ∈ t.files, f.1 <+: goal.dropLast then none
  else some
    { files := (t.files.filter fun f => ¬goal <+: f.1).map fun f => (relocate src goal f.1, f.2)
      dirs := src.dropLast :: t.dirs.map (relocate src goal)
      nodup := relocate_injOn src goal t.nodup }

/-- Removing a file, or a directory with nothing in it. -/
def remove : Option (FileTree N C) :=
  if t.isFile p then
    some
      { files := t.files.filter fun f => f.1 ≠ p
        dirs := p.dropLast :: t.dirs
        nodup := (List.filter_sublist.map Prod.fst).nodup t.nodup }
  else if p ≠ [] ∧ t.list p = some [] then
    some { t with dirs := p.dropLast :: t.dirs.filter fun d => d ≠ p }
  else none

/-! ## Contents -/

/-- The contents of all files. -/
def contents : Multiset C := (t.files.map Prod.snd : Multiset C)

variable {t p src dst} {t' : FileTree N C}

/-- No file lies at or below a path where nothing is. -/
theorem not_prefix_of_not_there (h : t.isThere p = false) {f : List N × C} (hf : f ∈ t.files) :
    ¬p <+: f.1 := by
  intro hp
  rw [isThere, Bool.or_eq_false_iff] at h
  have hdir : ¬(¬t.isFile p ∧ (p = [] ∨ (∃ f ∈ t.files, p <+: f.1) ∨ ∃ d ∈ t.dirs, p <+: d)) := by
    simpa [isDir] using h.2
  exact hdir ⟨by simp [h.1], .inr (.inl ⟨f, hf, hp⟩)⟩

theorem isFile_of_not_there (h : t.isThere p = false) : t.isFile p = false := by
  rw [isThere, Bool.or_eq_false_iff] at h
  exact h.1

theorem contents_mkdir (h : t.mkdir p = some t') : t'.contents = t.contents := by
  rw [mkdir] at h
  split_ifs at h
  cases h
  rfl

theorem isFile_mkdir (h : t.mkdir p = some t') (q : List N) : t'.isFile q = t.isFile q := by
  rw [mkdir] at h
  split_ifs at h
  cases h
  rfl

/-- A move to where no file is takes every file along, or leaves it. -/
theorem files_of_move (h : t.move src dst = some t') (hfree : t.isFile dst = false) :
    t'.files = t.files.map fun f => (relocate src (t.destination src dst) f.1, f.2) := by
  simp only [move] at h
  split_ifs at h with hrefused
  cases h
  have hnone : ∀ f ∈ t.files, ¬t.destination src dst <+: f.1 := by
    intro f hf
    by_cases hdir : t.isDir dst = true
    · have hthere : t.isThere (t.destination src dst) = false := by
        by_contra hne
        exact hrefused (.inr (.inr (.inl ⟨hdir, Bool.eq_true_of_not_eq_false hne⟩)))
      exact not_prefix_of_not_there hthere hf
    · have hthere : t.isThere dst = false := by
        rw [isThere, hfree, Bool.eq_false_iff.mpr hdir]
        rfl
      rw [destination, if_neg hdir]
      exact not_prefix_of_not_there hthere hf
  have hkept : (t.files.filter fun f => ¬t.destination src dst <+: f.1) = t.files := by
    rw [List.filter_eq_self]
    intro f hf
    simpa using hnone f hf
  dsimp only
  rw [hkept]

/-- **A move** to where no file is keeps all contents. -/
theorem contents_move (h : t.move src dst = some t') (hfree : t.isFile dst = false) :
    t'.contents = t.contents := by
  rw [contents, files_of_move h hfree, List.map_map]
  rfl

/-- A directory that can be listed is no file. -/
theorem isFile_of_list {l : List (N × Bool)} (h : t.list p = some l) : t.isFile p = false := by
  rw [list] at h
  split_ifs at h with hdir
  simp only [isDir, decide_eq_true_eq, Bool.not_eq_true] at hdir
  exact hdir.1

theorem contents_remove (h : t.remove p = some t') (hfile : t.isFile p = false) :
    t'.contents = t.contents := by
  rw [remove, if_neg (by simp [hfile])] at h
  split_ifs at h
  cases h
  rfl

/-! ## Paths -/

theorem isFile_iff : t.isFile p = true ↔ ∃ f ∈ t.files, f.1 = p := by
  simp [isFile]

theorem isThere_of_isFile (h : t.isFile p = true) : t.isThere p = true := by
  simp [isThere, h]

theorem isDir_of_not_there (h : t.isThere p = false) : t.isDir p = false := by
  rw [isThere, Bool.or_eq_false_iff] at h
  exact h.2

theorem files_mkdir (h : t.mkdir p = some t') : t'.files = t.files := by
  rw [mkdir] at h
  split_ifs at h
  cases h
  rfl

/-- Nothing is at a path at or below which no file and no directory lies. -/
theorem isThere_eq_false (hroot : p ≠ []) (hfiles : ∀ f ∈ t.files, ¬p <+: f.1)
    (hdirs : ∀ d ∈ t.dirs, ¬p <+: d) : t.isThere p = false := by
  rw [isThere, Bool.or_eq_false_iff]
  constructor
  · rw [Bool.eq_false_iff]
    intro hfile
    obtain ⟨f, hf, rfl⟩ := isFile_iff.mp hfile
    exact hfiles f hf List.prefix_rfl
  · simp only [isDir, decide_eq_false_iff_not]
    rintro ⟨-, hnil | ⟨f, hf, hpf⟩ | ⟨d, hd, hpd⟩⟩
    · exact hroot hnil
    · exact hfiles f hf hpf
    · exact hdirs d hd hpd

/-- A directory can be made where it lies below no file. -/
theorem mkdir_eq_some (h : ∀ f ∈ t.files, ¬f.1 <+: p) :
    t.mkdir p = some { t with dirs := p :: t.dirs } := by
  rw [mkdir, if_neg]
  rintro ⟨f, hf, hp⟩
  exact h f hf hp

/-- Making a directory makes nothing that is not above it. -/
theorem isThere_mkdir {q : List N} (h : t.mkdir p = some t') (hq : ¬q <+: p)
    (hthere : t.isThere q = false) : t'.isThere q = false := by
  rw [mkdir] at h
  split_ifs at h
  cases h
  simp only [isThere, isDir, Bool.or_eq_false_iff, decide_eq_false_iff_not] at hthere ⊢
  refine ⟨hthere.1, ?_⟩
  rintro ⟨hfile, hroot | hbelow | ⟨d, hd, hqd⟩⟩
  · exact hthere.2 ⟨hfile, .inl hroot⟩
  · exact hthere.2 ⟨hfile, .inr (.inl hbelow)⟩
  · rcases List.mem_cons.mp hd with rfl | hd
    · exact hq hqd
    · exact hthere.2 ⟨hfile, .inr (.inr ⟨d, hd, hqd⟩)⟩

theorem files_remove (h : t.remove p = some t') (hfile : t.isFile p = false) :
    t'.files = t.files := by
  rw [remove, if_neg (by simp [hfile])] at h
  split_ifs at h
  cases h
  rfl

/-- The files in a directory, by their names. -/
theorem mem_list_iff {l : List (N × Bool)} (h : t.list p = some l) (n : N) :
    (n, false) ∈ l ↔ t.isFile (p ++ [n]) = true := by
  rw [list] at h
  split_ifs at h
  cases h
  simp only [List.mem_map, List.mem_dedup, List.mem_filterMap, List.mem_filter, List.mem_append,
    decide_eq_true_eq, Prod.mk.injEq]
  constructor
  · rintro ⟨m, ⟨q, ⟨hq, r, rfl⟩, hhead⟩, rfl, hdir⟩
    rw [List.drop_left, List.head?_eq_some_iff] at hhead
    obtain ⟨r', rfl⟩ := hhead
    have hbelow : p ++ [m] <+: p ++ m :: r' := ⟨r', by simp⟩
    by_contra hfile
    rw [isDir, decide_eq_false_iff_not] at hdir
    refine hdir ⟨hfile, .inr ?_⟩
    rcases hq with ⟨f, hf, hpath⟩ | hq
    · exact .inl ⟨f, hf, by rwa [hpath]⟩
    · exact .inr ⟨_, hq, hbelow⟩
  · intro hfile
    obtain ⟨f, hf, hpath⟩ := isFile_iff.mp hfile
    refine ⟨n, ⟨f.1, ⟨.inl ⟨f, hf, rfl⟩, ?_⟩, ?_⟩, rfl, ?_⟩
    · rw [hpath]
      exact List.prefix_append p [n]
    · rw [hpath]
      simp
    · simp [isDir, hfile]

theorem nodup_list {l : List (N × Bool)} (h : t.list p = some l) : (l.map Prod.fst).Nodup := by
  rw [list] at h
  split_ifs at h
  cases h
  simp only [List.map_map, Function.comp_def, List.map_id']
  exact List.nodup_dedup _

/-! ## Moving -/

/-- A move to where nothing is goes there. -/
theorem destination_of_not_there (hdst : t.isThere dst = false) : t.destination src dst = dst := by
  simp [destination, isDir_of_not_there hdst]

/-- The files after all that lies at a path is taken to another. -/
def carried (src dst : List N) (files : List (List N × C)) : List (List N × C) :=
  files.map fun f => (relocate src dst f.1, f.2)

theorem files_of_move_free (h : t.move src dst = some t') (hdst : t.isThere dst = false) :
    t'.files = carried src dst t.files := by
  rw [files_of_move h (isFile_of_not_there hdst), destination_of_not_there hdst, carried]

theorem relocate_append (r : List N) : relocate src dst (src ++ r) = dst ++ r := by
  rw [relocate, if_pos (List.prefix_append src r), List.drop_left]

theorem relocate_of_not {q : List N} (h : ¬src <+: q) : relocate src dst q = q := if_neg h

theorem carried_eq_self {files : List (List N × C)} (h : ∀ f ∈ files, ¬src <+: f.1) :
    carried src dst files = files := by
  have hself : ∀ f ∈ files, (relocate src dst f.1, f.2) = f := fun f hf => by
    rw [relocate_of_not (h f hf)]
  exact (List.map_congr_left hself).trans (List.map_id' files)

/-- What was taken to where nothing was can be taken back. -/
theorem carried_carried {files : List (List N × C)} (h : ∀ f ∈ files, ¬dst <+: f.1) :
    carried dst src (carried src dst files) = files := by
  have hback : ∀ f ∈ files, (relocate dst src (relocate src dst f.1), f.2) = f := by
    intro f hf
    by_cases hsrc : src <+: f.1
    · obtain ⟨r, hr⟩ := hsrc
      rw [← hr, relocate_append, relocate_append, hr]
    · rw [relocate_of_not hsrc, relocate_of_not (h f hf)]
  rw [carried, carried, List.map_map]
  exact (List.map_congr_left hback).trans (List.map_id' files)

/-- Something is at each path above another at which something is. -/
theorem isThere_of_prefix {q : List N} (h : t.isThere q = true) (hp : p <+: q) :
    t.isThere p = true := by
  by_contra hne
  have hfree : t.isThere p = false := Bool.eq_false_iff.mpr hne
  have hnone : ∀ d ∈ t.dirs, ¬p <+: d := by
    intro d hd hpd
    have hdir := isDir_of_not_there hfree
    simp only [isDir, decide_eq_false_iff_not] at hdir
    exact hdir ⟨by simp [isFile_of_not_there hfree], .inr (.inr ⟨d, hd, hpd⟩)⟩
  have hroot : p ≠ [] := by
    intro hnil
    have hdir := isDir_of_not_there hfree
    simp only [isDir, decide_eq_false_iff_not] at hdir
    exact hdir ⟨by simp [isFile_of_not_there hfree], .inl hnil⟩
  have hq : t.isThere q = false := isThere_eq_false (fun hnil => hroot (by simpa [hnil] using hp))
    (fun f hf hqf => not_prefix_of_not_there hfree hf (hp.trans hqf))
    fun d hd hqd => hnone d hd (hp.trans hqd)
  rw [hq] at h
  cases h

theorem isThere_of_move (h : t.move src dst = some t') : t.isThere src = true := by
  by_contra hne
  rw [move, if_pos (.inl (Bool.eq_false_iff.mpr hne))] at h
  cases h

/-- A file that is not below what is moved stays. -/
theorem isFile_move_of_not_below {q : List N} (h : t.move src dst = some t')
    (hfree : t.isFile dst = false) (hq : t.isFile q = true) (hsrc : ¬src <+: q) :
    t'.isFile q = true := by
  obtain ⟨f, hf, rfl⟩ := isFile_iff.mp hq
  rw [isFile_iff, files_of_move h hfree]
  exact ⟨_, List.mem_map_of_mem hf, if_neg hsrc⟩

/-- A file was there before a move, or is at or below where the move goes. -/
theorem isFile_or_below_of_move {q : List N} (h : t.move src dst = some t')
    (hdst : t.isThere dst = false) (hq : t'.isFile q = true) : t.isFile q = true ∨ dst <+: q := by
  obtain ⟨g, hg, rfl⟩ := isFile_iff.mp hq
  rw [files_of_move h (isFile_of_not_there hdst), destination_of_not_there hdst] at hg
  obtain ⟨f, hf, rfl⟩ := List.mem_map.mp hg
  dsimp only [relocate]
  split_ifs
  · exact .inr (List.prefix_append _ _)
  · exact .inl (isFile_iff.mpr ⟨f, hf, rfl⟩)

/-- A file can be moved to where nothing is, unless that lies below a file. -/
theorem exists_move (hsrc : t.isFile src = true) (hdst : t.isThere dst = false)
    (hbelow : ¬src <+: dst) (habove : ∀ f ∈ t.files, ¬f.1 <+: dst.dropLast) :
    ∃ t', t.move src dst = some t' ∧ t'.dirs = src.dropLast :: t.dirs.map (relocate src dst) := by
  have hdir : t.isDir src = false := by simp [isDir, hsrc]
  simp only [move, destination_of_not_there hdst]
  rw [if_neg]
  · exact ⟨_, rfl, rfl⟩
  · rintro (h | h | h | h | ⟨f, hf, h⟩)
    · rw [isThere_of_isFile hsrc] at h
      cases h
    · exact hbelow h
    · rw [isDir_of_not_there hdst] at h
      cases h.1
    · rw [hdir] at h
      cases h.1
    · exact habove f hf h

/-- No file lies below a file. -/
def Sound (files : List (List N × C)) : Prop := ∀ f ∈ files, ∀ g ∈ files, f.1 <+: g.1 → f.1 = g.1

/-- The files after the one at a path is moved. -/
def moved (src dst : List N) (files : List (List N × C)) : List (List N × C) :=
  files.map fun f => (if f.1 = src then dst else f.1, f.2)

/-- **Moving a file** to where nothing is changes its path. -/
theorem files_move (hsound : Sound t.files) (h : t.move src dst = some t')
    (hsrc : t.isFile src = true) (hdst : t.isThere dst = false) :
    t'.files = moved src dst t.files := by
  rw [files_of_move h (isFile_of_not_there hdst), destination_of_not_there hdst]
  obtain ⟨g, hg, rfl⟩ := isFile_iff.mp hsrc
  refine List.map_congr_left ?_
  intro f hf
  by_cases hpath : f.1 = g.1
  · simp [relocate, hpath]
  · have hbelow : ¬g.1 <+: f.1 := fun hpre => hpath (hsound g hg f hf hpre).symm
    simp [relocate, hpath, hbelow]

theorem sound_move (hsound : Sound t.files) (h : t.move src dst = some t')
    (hdst : t.isThere dst = false) : Sound (moved src dst t.files) := by
  have hgoal : t.destination src dst = dst := destination_of_not_there hdst
  have habove : ∀ f ∈ t.files, ¬f.1 <+: dst := by
    intro f hf hpre
    obtain ⟨r, hr⟩ := hpre
    simp only [move, hgoal] at h
    split_ifs at h with hrefused
    by_cases hnil : r = []
    · rw [hnil, List.append_nil] at hr
      exact not_prefix_of_not_there hdst hf (hr ▸ List.prefix_rfl)
    · refine hrefused (.inr (.inr (.inr (.inr ⟨f, hf, r.dropLast, ?_⟩))))
      rw [← hr, List.dropLast_append_of_ne_nil hnil]
  intro f hf g hg hpre
  rw [moved, List.mem_map] at hf hg
  obtain ⟨f, hf, rfl⟩ := hf
  obtain ⟨g, hg, rfl⟩ := hg
  dsimp only at hpre ⊢
  split_ifs at hpre ⊢ with hfs hgs hgs
  · rfl
  · exact absurd hpre (not_prefix_of_not_there hdst hg)
  · exact absurd hpre (habove f hf)
  · exact hsound f hf g hg hpre

end FileTree
