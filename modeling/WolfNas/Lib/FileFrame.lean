import WolfNas.Lib.FileStore

/-!
# Names that stay as they are

An operation on a file store changes some names and one file.  Whatever leads to another file
by other names stays as it is, and that is what a caller wants to know of the files it did not
ask to be changed.

## Main definitions

* `FileStore.Still` — a name leads to the same file with the same content as before.
* `FileStore.unlinkAll` — removing several names.

## Main results

* `FileStore.still_write`, `FileStore.still_unlink`, `FileStore.still_copyEntry`,
  `FileStore.still_symlink`, `FileStore.still_rename`, `FileStore.still_unlinkAll` — the names
  each operation leaves alone.
* `FileStore.read_write`, `FileStore.read_copyEntry`, `FileStore.read_symlink`,
  `FileStore.read_rename` — what the target of each operation reads.
-/

namespace FileStore

variable {L C : Type} [DecidableEq L] {s s' s'' : FileStore L C} {a b k : L} {n : ℕ} {c : C}

/-- The name `k` stands for what it stood for, and leads to the same content. -/
structure Still (s s' : FileStore L C) (k : L) : Prop where
  entry : s'.entry k = s.entry k
  target : s'.entry (s.follow k) = s.entry (s.follow k)
  data : ∀ n, s.fileAt k = some n → s'.data n = s.data n

omit [DecidableEq L] in
theorem still_refl (s : FileStore L C) (k : L) : Still s s k := ⟨rfl, rfl, fun _ _ => rfl⟩

omit [DecidableEq L] in
theorem Still.follow (h : Still s s' k) : s'.follow k = s.follow k := by
  rw [FileStore.follow, FileStore.follow, h.entry]

omit [DecidableEq L] in
theorem Still.fileAt (h : Still s s' k) : s'.fileAt k = s.fileAt k := by
  rw [FileStore.fileAt, FileStore.fileAt, h.follow, h.target]

omit [DecidableEq L] in
theorem Still.read (h : Still s s' k) : s'.read k = s.read k := by
  rw [FileStore.read, FileStore.read, h.fileAt]
  cases hk : s.fileAt k with
  | none => rfl
  | some n => rw [Option.map_some, Option.map_some, h.data n hk]

omit [DecidableEq L] in
theorem Still.trans (h : Still s s' k) (h' : Still s' s'' k) : Still s s'' k := by
  refine ⟨h'.entry.trans h.entry, ?_, ?_⟩
  · have htarget := h'.target
    rw [h.follow] at htarget
    exact htarget.trans h.target
  · intro n hn
    exact (h'.data n (h.fileAt.trans hn)).trans (h.data n hn)

omit [DecidableEq L] in
/-- A name leads to a file where it can be read. -/
theorem exists_fileAt (h : s.read k = some c) : ∃ n, s.fileAt k = some n ∧ s.data n = c :=
  Option.map_eq_some_iff.mp h

omit [DecidableEq L] in
theorem read_of_fileAt (h : s.fileAt k = some n) : s.read k = some (s.data n) := by
  rw [FileStore.read, h, Option.map_some]

omit [DecidableEq L] in
theorem follow_of_file (h : s.entry k = some (.file n)) : s.follow k = k := by
  rw [FileStore.follow, h]

omit [DecidableEq L] in
theorem follow_of_link {t : L} (h : s.entry k = some (.link t)) : s.follow k = t := by
  rw [FileStore.follow, h]

omit [DecidableEq L] in
/-- A name leads to a file as its name, or as a link to it. -/
theorem file_or_link (h : s.fileAt k = some n) :
    s.entry k = some (.file n) ∨
      ∃ t, s.entry k = some (.link t) ∧ s.entry t = some (.file n) := by
  have hentry : s.entry (s.follow k) = some (.file n) := fileAt_eq_some.mp h
  cases hk : s.entry k with
  | none =>
    rw [FileStore.follow, hk] at hentry
    rw [hk] at hentry
    cases hentry
  | some e =>
    cases e with
    | file m =>
      rw [follow_of_file hk, hk] at hentry
      exact .inl hentry
    | link t =>
      rw [follow_of_link hk] at hentry
      exact .inr ⟨t, rfl, hentry⟩

/-! ## Names an operation leaves alone -/

/-- Writing leaves a name alone that leads to another file. -/
theorem still_write {x : C} (hopens : s.opens b = true) (hk : s.fileAt k = some n)
    (hb : s.fileAt b ≠ some n) : Still s (s.write b x) k := by
  have hentry : s.entry (s.follow k) = some (.file n) := fileAt_eq_some.mp hk
  obtain ⟨htarget, hdata⟩ := write_other (x := x) hentry hb
  refine ⟨?_, htarget.trans hentry.symm, ?_⟩
  · cases hfile : s.fileAt b with
    | some m => rw [write_of_fileAt hfile]
    | none =>
      rw [entry_write_of_free hfile, Function.update_of_ne]
      -- The target opens, so it is no link; and it is no file either.
      rintro rfl
      cases hlink : s.entry (s.follow b) with
      | none =>
        rw [fileAt_of_free hlink] at hk
        cases hk
      | some entry =>
        cases entry with
        | file m => exact absurd ((fileAt_eq_some.mpr hlink).symm.trans hfile) (by simp)
        | link t => simp [opens, hlink] at hopens
  · intro m hm
    obtain rfl := Option.some.inj (hk.symm.trans hm)
    exact hdata

/-- Removing a name leaves the others alone, but for links to it. -/
theorem still_unlink (hk : k ≠ a) (htarget : s.follow k ≠ a) : Still s (s.unlink a) k :=
  ⟨by rw [entry_unlink, Function.update_of_ne hk],
    by rw [entry_unlink, Function.update_of_ne htarget], fun _ _ => rfl⟩

theorem still_copyEntry (hk : k ≠ b) (htarget : s.follow k ≠ b) : Still s (s.copyEntry a b) k :=
  ⟨by rw [entry_copyEntry, Function.update_of_ne hk],
    by rw [entry_copyEntry, Function.update_of_ne htarget], fun _ _ => rfl⟩

theorem still_symlink {t : L} (hk : k ≠ b) (htarget : s.follow k ≠ b) :
    Still s (s.symlink t b) k :=
  ⟨by rw [entry_symlink, Function.update_of_ne hk],
    by rw [entry_symlink, Function.update_of_ne htarget], fun _ _ => rfl⟩

theorem still_rename (hka : k ≠ a) (htargeta : s.follow k ≠ a) (hkb : k ≠ b)
    (htargetb : s.follow k ≠ b) : Still s (s.rename a b) k := by
  rw [rename]
  split_ifs
  · exact still_refl s k
  · have hcopy : Still s (s.copyEntry a b) k := still_copyEntry hkb htargetb
    refine hcopy.trans (still_unlink hka ?_)
    rw [hcopy.follow]
    exact htargeta

/-- Removing several names. -/
def unlinkAll (s : FileStore L C) (names : List L) : FileStore L C := names.foldl unlink s

theorem still_unlinkAll {names : List L} (hk : k ∉ names) (htarget : s.follow k ∉ names) :
    Still s (s.unlinkAll names) k := by
  induction names generalizing s with
  | nil => exact still_refl s k
  | cons l names ih =>
    rw [List.mem_cons, not_or] at hk htarget
    have hhead : Still s (s.unlink l) k := still_unlink hk.1 htarget.1
    refine hhead.trans (ih hk.2 ?_)
    rw [hhead.follow]
    exact htarget.2

/-! ## What the target reads -/

/-- Writing behind a name leaves it leading where it led. -/
theorem follow_write (b : L) (x : C) : (s.write b x).follow b = s.follow b := by
  cases hb : s.fileAt b with
  | some m =>
    rw [write_of_fileAt hb]
    rfl
  | none =>
    by_cases hself : s.follow b = b
    · have hentry : (s.write b x).entry b = some (.file s.next) := by
        rw [entry_write_of_free hb, hself, Function.update_self]
      rw [follow_of_file hentry, hself]
    · have hne : b ≠ s.follow b := fun h => hself h.symm
      rw [FileStore.follow, FileStore.follow, entry_write_of_free hb, Function.update_of_ne hne]

/-- The target of a write reads what was written. -/
theorem read_write (b : L) (x : C) : (s.write b x).read b = some x := by
  obtain ⟨n, hentry, hdata⟩ := write_target (s := s) b x
  have hfile : (s.write b x).fileAt b = some n :=
    fileAt_eq_some.mpr (by rw [follow_write, hentry])
  rw [read_of_fileAt hfile, hdata]

/-- Another name of a file reads its content. -/
theorem read_copyEntry (hread : s.read a = some c) (hb : s.follow a ≠ b) :
    (s.copyEntry a b).read b = some c := by
  obtain ⟨n, hn, rfl⟩ := exists_fileAt hread
  have hself : (s.copyEntry a b).entry b = s.entry a := by
    rw [entry_copyEntry, Function.update_self]
  have hfile : (s.copyEntry a b).fileAt b = some n := by
    rcases file_or_link hn with hentry | ⟨t, hlink, hentry⟩
    · exact fileAt_of_entry (hself.trans hentry)
    · rw [follow_of_link hlink] at hb
      rw [fileAt_eq_some, follow_of_link (hself.trans hlink), entry_copyEntry,
        Function.update_of_ne hb, hentry]
  rw [read_of_fileAt hfile, data_copyEntry]

/-- A link to a file reads its content. -/
theorem read_symlink {t : L} (ht : s.entry t = some (.file n)) (hb : t ≠ b) :
    (s.symlink t b).read b = some (s.data n) := by
  have hself : (s.symlink t b).entry b = some (.link t) := by
    rw [entry_symlink, Function.update_self]
  have hfile : (s.symlink t b).fileAt b = some n := by
    rw [fileAt_eq_some, follow_of_link hself, entry_symlink, Function.update_of_ne hb, ht]
  rw [read_of_fileAt hfile, data_symlink]

/-- A moved name reads what it read before, where it is no link to its new place. -/
theorem read_rename (hread : s.read a = some c) (hb : s.follow a ≠ b) :
    (s.rename a b).read b = some c := by
  rw [rename]
  split_ifs with hsame
  · -- The two are names of one file, and stay so.
    obtain ⟨n, hn, rfl⟩ := exists_fileAt hread
    have hfile : s.fileAt b = some n := by
      rcases file_or_link hn with hentry | ⟨t, hlink, hentry⟩
      · exact fileAt_of_entry (hsame.symm.trans hentry)
      · rw [fileAt_eq_some, follow_of_link (hsame.symm.trans hlink), hentry]
    exact read_of_fileAt hfile
  · have hba : b ≠ a := fun h => hsame (by rw [h])
    have hcopy : (s.copyEntry a b).read b = some c := read_copyEntry hread hb
    obtain ⟨n, hn, hdata⟩ := exists_fileAt hread
    have hself : (s.copyEntry a b).entry b = s.entry a := by
      rw [entry_copyEntry, Function.update_self]
    -- What the new name leads to is not the old name.
    have htarget : (s.copyEntry a b).follow b ≠ a := by
      rcases file_or_link hn with hentry | ⟨t, hlink, hentry⟩
      · rw [follow_of_file (hself.trans hentry)]
        exact hba
      · rw [follow_of_link (hself.trans hlink)]
        rintro rfl
        rw [hlink] at hentry
        cases hentry
    rw [(still_unlink hba htarget).read]
    exact hcopy

end FileStore
