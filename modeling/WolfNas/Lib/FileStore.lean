import Mathlib.Data.List.Basic
import Mathlib.Logic.Function.Basic
import Mathlib.Tactic.SplitIfs

/-!
# Files, names and links

A file store gives names to numbered files.  Several names may share one file, which is what
a hard link is, and a name may stand for another name, which is what a symbolic link is.
Removing a name removes the file's content only where it was the last one.  A link is
followed once: a link to a link is not readable.

## Main definitions

* `FileStore L C` — names in `L`, contents in `C`.
* `FileStore.read`, `FileStore.write` — the content behind a name.
* `FileStore.unlink`, `FileStore.copyEntry`, `FileStore.symlink` — operations on names.
* `FileStore.Holds` — some name still leads to a content.
* `FileStore.Spare` — the content of a file is also the content of another.
* `FileStore.NameSpare` — the content of a file is held under another name.
* `FileStore.InPlace` — the same file stands at a name in two stores.

## Main results

* `FileStore.holds_write` — writing keeps every content, where the target's has a spare.
* `FileStore.holds_write_unlink` — so does writing a copy and removing the original.
* `FileStore.holds_rename` — so does moving a name.
-/

/-- What a name stands for. -/
inductive Entry (L : Type)
  /-- The file with this number. -/
  | file (n : ℕ)
  /-- A symbolic link. -/
  | link (target : L)
  deriving DecidableEq

/-- A store of files.  Every file in use has a number below `next`. -/
structure FileStore (L C : Type) where
  entry : L → Option (Entry L)
  data : ℕ → C
  next : ℕ
  bounded : ∀ l n, entry l = some (.file n) → n < next

namespace FileStore

/-- There is no file where no name stands for one. -/
theorem bounded_empty {L : Type} (_ : L) (n : ℕ)
    (h : (none : Option (Entry L)) = some (.file n)) : n < 0 := by
  cases h

variable {L C : Type} [DecidableEq L] (s : FileStore L C)

/-- The name a link leads to. -/
def follow (l : L) : L :=
  match s.entry l with
  | some (.link t) => t
  | _ => l

/-- The file a name leads to. -/
def fileAt (l : L) : Option ℕ :=
  match s.entry (s.follow l) with
  | some (.file n) => some n
  | _ => none

/-- The content a name leads to. -/
def read (l : L) : Option C := (s.fileAt l).map s.data

/-- A name leads to a file. -/
def isThere (l : L) : Bool := (s.fileAt l).isSome

/-- A name can be opened for writing: it leads to a file, or to a free name. -/
def opens (l : L) : Bool :=
  match s.entry (s.follow l) with
  | some (.link _) => false
  | _ => true

/-- Removing a name. -/
def unlink (l : L) : FileStore L C where
  entry := Function.update s.entry l none
  data := s.data
  next := s.next
  bounded := by
    intro l' n h
    by_cases hl : l' = l
    · simp [hl] at h
    · exact s.bounded l' n (by simpa [hl] using h)

/-- Writing a content behind a name: into the file it leads to, or into a new one. -/
def write (l : L) (c : C) : FileStore L C :=
  match s.fileAt l with
  | some n => { s with data := Function.update s.data n c }
  | none =>
    { entry := Function.update s.entry (s.follow l) (some (.file s.next))
      data := Function.update s.data s.next c
      next := s.next + 1
      bounded := by
        intro l' n h
        by_cases hl : l' = s.follow l
        · have : n = s.next := by simpa [hl, eq_comm] using h
          omega
        · have := s.bounded l' n (by simpa [hl] using h)
          omega }

/-- Giving the name `l'` to what `l` stands for. -/
def copyEntry (l l' : L) : FileStore L C where
  entry := Function.update s.entry l' (s.entry l)
  data := s.data
  next := s.next
  bounded := by
    intro k n h
    by_cases hk : k = l'
    · exact s.bounded l n (by simpa [hk] using h)
    · exact s.bounded k n (by simpa [hk] using h)

/-- Making `l` a symbolic link. -/
def symlink (target l : L) : FileStore L C where
  entry := Function.update s.entry l (some (.link target))
  data := s.data
  next := s.next
  bounded := by
    intro k n h
    by_cases hk : k = l
    · simp [hk] at h
    · exact s.bounded k n (by simpa [hk] using h)

/-- Moving a name; two names of one file are left as they are. -/
def rename (l l' : L) : FileStore L C :=
  if s.entry l = s.entry l' then s else (s.copyEntry l l').unlink l

@[simp] theorem entry_unlink (l : L) : (s.unlink l).entry = Function.update s.entry l none := rfl
@[simp] theorem entry_copyEntry (l l' : L) :
    (s.copyEntry l l').entry = Function.update s.entry l' (s.entry l) := rfl
@[simp] theorem data_copyEntry (l l' : L) : (s.copyEntry l l').data = s.data := rfl
@[simp] theorem entry_symlink (t l : L) :
    (s.symlink t l).entry = Function.update s.entry l (some (.link t)) := rfl
@[simp] theorem data_symlink (t l : L) : (s.symlink t l).data = s.data := rfl

variable {s}

omit [DecidableEq L] in
theorem fileAt_eq_some {l : L} {n : ℕ} :
    s.fileAt l = some n ↔ s.entry (s.follow l) = some (.file n) := by
  rw [fileAt]
  split
  · rename_i m h
    rw [h]
    simp
  · rename_i h
    simp only [reduceCtorEq, false_iff]
    exact h n

omit [DecidableEq L] in
/-- A name of a file leads to that file. -/
theorem fileAt_of_entry {l : L} {n : ℕ} (h : s.entry l = some (.file n)) : s.fileAt l = some n := by
  have hf : s.follow l = l := by simp [follow, h]
  rw [fileAt_eq_some, hf, h]

/-- Writing into a file changes that file only. -/
theorem write_of_fileAt {l : L} {n : ℕ} {c : C} (h : s.fileAt l = some n) :
    s.write l c = { s with data := Function.update s.data n c } := by
  rw [write]
  split
  · rename_i m hm
    obtain rfl : m = n := Option.some.inj (hm.symm.trans h)
    rfl
  · rename_i hm
    exact absurd (hm.symm.trans h) (by simp)

theorem entry_write_of_free {l : L} {c : C} (h : s.fileAt l = none) :
    (s.write l c).entry = Function.update s.entry (s.follow l) (some (.file s.next)) := by
  rw [write]
  split
  · rename_i m hm
    exact absurd (hm.symm.trans h) (by simp)
  · rfl

theorem data_write_of_free {l : L} {c : C} (h : s.fileAt l = none) :
    (s.write l c).data = Function.update s.data s.next c := by
  rw [write]
  split
  · rename_i m hm
    exact absurd (hm.symm.trans h) (by simp)
  · rfl

/-! ## Contents that are still held -/

variable (s) in
/-- Some name still leads to the content. -/
def Holds (c : C) : Prop := ∃ l n, s.entry l = some (.file n) ∧ s.data n = c

variable (s) in
/-- Another file has the content of the file `n`. -/
def Spare (n : ℕ) : Prop := ∃ l m, m ≠ n ∧ s.entry l = some (.file m) ∧ s.data m = s.data n

variable (s) in
/-- Whatever file stands at `l`, its content has a spare. -/
def TargetSpare (l : L) : Prop := ∀ n, s.fileAt l = some n → s.Spare n

omit [DecidableEq L] in
theorem targetSpare_of_free {l : L} (h : s.fileAt l = none) : s.TargetSpare l := by
  intro n hn
  rw [h] at hn
  cases hn

omit [DecidableEq L] in
theorem holds_of_read {l : L} {c : C} (h : s.read l = some c) : s.Holds c := by
  obtain ⟨n, hn, hc⟩ := Option.map_eq_some_iff.mp h
  exact ⟨s.follow l, n, fileAt_eq_some.mp hn, hc⟩

omit [DecidableEq L] in
/-- A content whose target has a spare is held by a file that is not the target's. -/
theorem exists_other {l : L} {c : C} (hspare : s.TargetSpare l) (hc : s.Holds c) :
    ∃ k n, s.entry k = some (.file n) ∧ s.data n = c ∧ s.fileAt l ≠ some n := by
  obtain ⟨k, n, hk, hn⟩ := hc
  by_cases htarget : s.fileAt l = some n
  · obtain ⟨k', m, hne, hk', hm⟩ := hspare n htarget
    refine ⟨k', m, hk', hm.trans hn, ?_⟩
    rw [htarget]
    exact fun h => hne (Option.some.inj h).symm
  · exact ⟨k, n, hk, hn, htarget⟩

/-- A file that is not the target keeps its name and content when the target is written. -/
theorem write_other {l k : L} {n : ℕ} {x : C} (hk : s.entry k = some (.file n))
    (hne : s.fileAt l ≠ some n) :
    (s.write l x).entry k = some (.file n) ∧ (s.write l x).data n = s.data n := by
  cases hl : s.fileAt l with
  | some m =>
    have hnm : n ≠ m := fun h => hne (by rw [hl, h])
    rw [write_of_fileAt hl]
    exact ⟨hk, Function.update_of_ne hnm _ _⟩
  | none =>
    have hfollow : k ≠ s.follow l := by
      rintro rfl
      rw [fileAt_eq_some.mpr hk] at hl
      cases hl
    have hnext : n ≠ s.next := Nat.ne_of_lt (s.bounded k n hk)
    rw [entry_write_of_free hl, data_write_of_free hl]
    exact ⟨by rw [Function.update_of_ne hfollow, hk], Function.update_of_ne hnext _ _⟩

/-- The target of a write holds what was written. -/
theorem write_target (l : L) (x : C) :
    ∃ n, (s.write l x).entry (s.follow l) = some (.file n) ∧ (s.write l x).data n = x := by
  cases hl : s.fileAt l with
  | some m =>
    rw [write_of_fileAt hl]
    exact ⟨m, fileAt_eq_some.mp hl, Function.update_self ..⟩
  | none =>
    rw [entry_write_of_free hl, data_write_of_free hl]
    exact ⟨s.next, Function.update_self .., Function.update_self ..⟩

/-- **Writing** keeps every content, where the content of the target has a spare. -/
theorem holds_write {l : L} {x c : C} (hspare : s.TargetSpare l) (hc : s.Holds c) :
    (s.write l x).Holds c := by
  obtain ⟨k, n, hk, hn, hne⟩ := exists_other hspare hc
  obtain ⟨hk', hn'⟩ := write_other (x := x) hk hne
  exact ⟨k, n, hk', hn'.trans hn⟩

/-- A content with a second name survives the removal of the first. -/
theorem holds_unlink {l k : L} {n : ℕ} (hk : s.entry k = some (.file n)) (hne : k ≠ l) :
    (s.unlink l).Holds (s.data n) :=
  ⟨k, n, by rw [entry_unlink, Function.update_of_ne hne, hk], rfl⟩

/-- **Copying and removing the original** keeps every content, where the content of the
target has a spare. -/
theorem holds_write_unlink {src dst : L} {x c : C} (hspare : s.TargetSpare dst)
    (hx : s.read src = some x ∨ s.fileAt src = s.fileAt dst) (hc : s.Holds c) :
    ((s.write dst x).unlink src).Holds c := by
  obtain ⟨k, n, hk, hn, hne⟩ := exists_other hspare hc
  obtain ⟨hk', hn'⟩ := write_other (x := x) hk hne
  by_cases hsrc : k = src
  · -- The original's own content is at the target now.
    subst hsrc
    have hfile : s.fileAt k = some n := fileAt_of_entry hk
    have hread : s.data n = x := by
      rcases hx with hx | hsame
      · have : s.read k = some (s.data n) := by simp [read, hfile]
        exact Option.some.inj (this.symm.trans hx)
      · exact absurd (hsame.symm.trans hfile) hne
    have hfollow : s.follow dst ≠ k := by
      intro h
      exact hne (fileAt_eq_some.mpr (by rw [h, hk]))
    obtain ⟨m, hm, hmx⟩ := write_target dst x (s := s)
    have hheld := holds_unlink (s := s.write dst x) (l := k) hm hfollow
    rwa [hmx.trans (hread.symm.trans hn)] at hheld
  · have hheld := holds_unlink (s := s.write dst x) (l := src) hk' hsrc
    rwa [hn', hn] at hheld

variable (s) in
/-- In the store `s'` the same file stands at `l`, with the same content. -/
def InPlace (s' : FileStore L C) (l : L) : Prop := s'.fileAt l = s.fileAt l ∧ s'.read l = s.read l

omit [DecidableEq L] in
theorem inPlace_refl (l : L) : s.InPlace s l := ⟨rfl, rfl⟩

omit [DecidableEq L] in
/-- No file is at a name that stands for nothing. -/
theorem fileAt_of_free {l : L} (h : s.entry l = none) : s.fileAt l = none := by
  have hfollow : s.follow l = l := by rw [follow, h]
  rw [fileAt, hfollow, h]

/-- Removing a name loses no content but the one of its file. -/
theorem holds_unlink_or_read {l : L} {c : C} (hc : s.Holds c) :
    (s.unlink l).Holds c ∨ s.read l = some c := by
  obtain ⟨k, n, hk, hn⟩ := hc
  by_cases hkl : k = l
  · subst hkl
    right
    rw [read, fileAt_of_entry hk, Option.map_some, hn]
  · left
    exact hn ▸ holds_unlink hk hkl

/-! ## Replacing a name -/

variable (s) in
/-- The content of the file named `l` is held under another name. -/
def NameSpare (l : L) : Prop :=
  ∀ n, s.entry l = some (.file n) →
    ∃ k m, k ≠ l ∧ s.entry k = some (.file m) ∧ s.data m = s.data n

omit [DecidableEq L] in
theorem nameSpare_of_free {l : L} (h : s.entry l = none) : s.NameSpare l := by
  intro n hn
  rw [h] at hn
  cases hn

/-- A content is held under a name other than one that has a spare. -/
theorem exists_other_name {l : L} {c : C} (hspare : s.NameSpare l) (hc : s.Holds c) :
    ∃ k n, k ≠ l ∧ s.entry k = some (.file n) ∧ s.data n = c := by
  obtain ⟨k, n, hk, hn⟩ := hc
  by_cases hkl : k = l
  · subst hkl
    obtain ⟨k', m, hne, hk', hm⟩ := hspare n hk
    exact ⟨k', m, hne, hk', hm.trans hn⟩
  · exact ⟨k, n, hkl, hk, hn⟩

theorem holds_copyEntry {l l' : L} {c : C} (hspare : s.NameSpare l') (hc : s.Holds c) :
    (s.copyEntry l l').Holds c := by
  obtain ⟨k, n, hne, hk, hn⟩ := exists_other_name hspare hc
  exact ⟨k, n, by rw [entry_copyEntry, Function.update_of_ne hne, hk], hn⟩

theorem holds_symlink {t l : L} {c : C} (hspare : s.NameSpare l) (hc : s.Holds c) :
    (s.symlink t l).Holds c := by
  obtain ⟨k, n, hne, hk, hn⟩ := exists_other_name hspare hc
  exact ⟨k, n, by rw [entry_symlink, Function.update_of_ne hne, hk], hn⟩

/-- **Moving a name** keeps every content, where the content it moves over has a spare. -/
theorem holds_rename {l l' : L} {c : C} (hspare : s.NameSpare l') (hc : s.Holds c) :
    (s.rename l l').Holds c := by
  rw [rename]
  split_ifs with hsame
  · exact hc
  · obtain ⟨k, n, hne, hk, hn⟩ := exists_other_name hspare hc
    have hll : l' ≠ l := fun h => hsame (by rw [h])
    by_cases hkl : k = l
    · subst hkl
      refine ⟨l', n, ?_, hn⟩
      rw [entry_unlink, Function.update_of_ne hll, entry_copyEntry, Function.update_self, hk]
    · refine ⟨k, n, ?_, hn⟩
      rw [entry_unlink, Function.update_of_ne hkl, entry_copyEntry, Function.update_of_ne hne, hk]

end FileStore
