import WolfNas.Lib.FileFrame
import WolfNas.Transfer.Overwrite

/-!
# What arrives at the target

Where a transfer goes through, its target holds what the source held, and what leads
elsewhere stays as it is.  Both take some care with names: the removal of an old file may
take the source with it, a copy of a file onto itself empties it, and the subtitles and
tracks that are taken along write and remove files of their own.

## Main definitions

* `Effect.Clear` — an operation has nothing to do with a name.
* `EngineEnv.sideNames` — the names that subtitles and tracks may touch.
* `EngineEnv.Arrives`, `EngineEnv.Moves`, `EngineEnv.Spares` — the conditions on the names of a
  transfer.

## Main results

* `Effect.read_apply`, `Effect.still_apply` — for one operation.
* `EngineEnv.read_transfer` — the target of a transfer that went through reads what the
  source read.
* `EngineEnv.moved_transfer` — and is a file of its own, where it was free.
* `EngineEnv.still_transfer` — a transfer leaves alone what it has nothing to do with.
-/

namespace WolfNas

open FileStore

namespace Effect

variable {s : Store} {a b k : Loc} {f : Fault} {e : Effect} {n : ℕ} {c : Content}

/-- An operation from `a` to `b` has nothing to do with the name `k`: neither it nor what it
leads to is one of the two, and it is no other name of the target's file. -/
structure Clear (s : Store) (a b k : Loc) : Prop where
  src : k ≠ a ∧ s.follow k ≠ a
  dst : k ≠ b ∧ s.follow k ≠ b
  file : ∀ n, s.fileAt k = some n → s.fileAt b ≠ some n

private theorem still_removeFile {t : Store} (hk : k ≠ a) (htarget : t.follow k ≠ a) :
    Still t (EngineEnv.removeFile t a f).2 k := by
  rw [EngineEnv.removeFile]
  split_ifs
  · exact still_refl t k
  · exact still_refl t k
  · exact still_unlink hk htarget

/-- **An operation leaves alone** a name it has nothing to do with. -/
theorem still_apply (hfits : e.Fits s a b) (hk : s.fileAt k = some n) (h : Clear s a b k) :
    Still s (e.apply s a b f).2 k := by
  cases e with
  | refused e => exact still_refl s k
  | fills x removes =>
    have hwrite : ∀ y, Still s (s.write b y) k := fun y =>
      still_write hfits.2.1 hk (h.file n hk)
    have hthen : Still s (thenRemove removes a f (s.write b x)).2 k := by
      rw [thenRemove]
      split_ifs
      · refine (hwrite x).trans (still_removeFile h.src.1 ?_)
        rw [(hwrite x).follow]
        exact h.src.2
      · exact hwrite x
    cases f with
    | start => exact still_refl s k
    | partway y => exact hwrite y
    | finish => exact hwrite x
    | none | removeOld | removeSrc => exact hthen
  | renames =>
    rw [apply]
    split_ifs
    · exact still_refl s k
    · exact still_rename h.src.1 h.src.2 h.dst.1 h.dst.2
  | links =>
    rw [apply]
    split_ifs
    · exact still_refl s k
    · exact still_copyEntry h.dst.1 h.dst.2
  | points =>
    rw [apply]
    split_ifs
    · exact still_refl s k
    · exact still_symlink h.dst.1 h.dst.2
  | relinks target =>
    have hlink : Still s (s.symlink target b) k := still_symlink h.dst.1 h.dst.2
    refine hlink.trans (still_removeFile h.src.1 ?_)
    rw [hlink.follow]
    exact h.src.2

/-- The source of an effect that fits leads to no free name. -/
private theorem follow_ne (hread : s.read a = some c) (hne : s.fileAt b ≠ s.fileAt a) :
    s.follow a ≠ b := by
  obtain ⟨n, hn, _⟩ := exists_fileAt hread
  rintro rfl
  exact hne ((fileAt_of_entry (fileAt_eq_some.mp hn)).trans hn.symm)

/-- What the target of a write leads to is not the source. -/
private theorem follow_target_ne (hread : s.read a = some c) (hopens : s.opens b = true)
    (hne : s.fileAt b ≠ s.fileAt a) : s.follow b ≠ a := by
  obtain ⟨n, hn, _⟩ := exists_fileAt hread
  rintro rfl
  rcases file_or_link hn with hentry | ⟨t, hlink, _⟩
  · exact hne ((fileAt_eq_some.mpr hentry).trans (fileAt_of_entry hentry).symm)
  · simp [opens, hlink] at hopens

/-- **The target of an operation that went through** reads what the source read, where the
two were not one file. -/
theorem read_apply (hfits : e.Fits s a b) (hread : s.read a = some c)
    (hne : s.fileAt b ≠ s.fileAt a) (hok : (e.apply s a b f).1 = .ok ()) :
    (e.apply s a b f).2.read b = some c := by
  have hsame : s.follow a ≠ b := follow_ne hread hne
  have hab : b ≠ a := by
    rintro rfl
    exact hne rfl
  cases e with
  | refused e => simp [apply] at hok
  | fills x removes =>
    obtain ⟨_, hopens, hx⟩ := hfits
    obtain rfl : x = c := by
      rcases hx with hx | hx
      · exact Option.some.inj (hx.symm.trans hread)
      · exact absurd hx.symm hne
    have hthen : (thenRemove removes a f (s.write b x)).2.read b = some x := by
      rw [thenRemove]
      split_ifs
      · have htarget : (s.write b x).follow b ≠ a := by
          rw [follow_write]
          exact follow_target_ne hread hopens hne
        rw [(still_removeFile hab htarget).read, read_write]
      · exact read_write b x
    cases f with
    | start | partway y | finish => simp [apply, EngineEnv.andThen, EngineEnv.writeFile] at hok
    | none | removeOld | removeSrc => exact hthen
  | renames =>
    rw [apply] at hok ⊢
    split_ifs at hok ⊢
    exact read_rename hread hsame
  | links =>
    rw [apply] at hok ⊢
    split_ifs at hok ⊢
    exact read_copyEntry hread hsame
  | points =>
    rw [apply] at hok ⊢
    split_ifs at hok ⊢
    obtain ⟨n, hn, rfl⟩ := exists_fileAt hread
    exact read_symlink (fileAt_eq_some.mp hn) hsame
  | relinks target =>
    obtain ⟨hsrc, hdst⟩ := hfits
    obtain ⟨n, hn, rfl⟩ := exists_fileAt hread
    rw [follow_of_link hsrc] at hsame
    have hentry : s.entry target = some (.file n) := by
      rw [fileAt_eq_some, follow_of_link hsrc] at hn
      exact hn
    have hlink : (s.symlink target b).follow b = target :=
      follow_of_link (by rw [entry_symlink, Function.update_self])
    have hta : target ≠ a := by
      rintro rfl
      rw [hsrc] at hentry
      cases hentry
    rw [apply, (still_removeFile hab (by rw [hlink]; exact hta)).read]
    exact read_symlink hentry hsame

/-- An operation on a free target makes no other name but the source stand for anything
else. -/
theorem entry_apply (hb : s.entry b = none) (hka : k ≠ a) (hkb : k ≠ b) :
    (e.apply s a b f).2.entry k = s.entry k := by
  have hfree : s.fileAt b = none := fileAt_of_free hb
  have hfollow : s.follow b = b := by rw [FileStore.follow, hb]
  have hremove : ∀ t : Store, (EngineEnv.removeFile t a f).2.entry k = t.entry k := by
    intro t
    rw [EngineEnv.removeFile]
    split_ifs
    · rfl
    · rfl
    · rw [entry_unlink, Function.update_of_ne hka]
  have hwrite : ∀ y, (s.write b y).entry k = s.entry k := by
    intro y
    rw [entry_write_of_free hfree, hfollow, Function.update_of_ne hkb]
  cases e with
  | refused e => rfl
  | fills x removes =>
    have hthen : (thenRemove removes a f (s.write b x)).2.entry k = s.entry k := by
      rw [thenRemove]
      split_ifs
      · rw [hremove, hwrite]
      · exact hwrite x
    cases f with
    | start => rfl
    | partway y => exact hwrite y
    | finish => exact hwrite x
    | none | removeOld | removeSrc => exact hthen
  | renames =>
    rw [apply]
    split_ifs
    · rfl
    · rw [rename]
      split_ifs
      · rfl
      · rw [entry_unlink, Function.update_of_ne hka, entry_copyEntry, Function.update_of_ne hkb]
  | links =>
    rw [apply]
    split_ifs
    · rfl
    · rw [entry_copyEntry, Function.update_of_ne hkb]
  | points =>
    rw [apply]
    split_ifs
    · rfl
    · rw [entry_symlink, Function.update_of_ne hkb]
  | relinks target =>
    rw [apply, hremove, entry_symlink, Function.update_of_ne hkb]

/-- A free target leads to itself once a file is put there, or back to the source. -/
theorem follow_apply (hfits : e.Fits s a b) (ha : s.entry a = some (.file n))
    (hb : s.entry b = none) (hok : (e.apply s a b f).1 = .ok ()) :
    (e.apply s a b f).2.follow b = b ∨ e = .points ∧ (e.apply s a b f).2.follow b = a := by
  have hfree : s.fileAt b = none := fileAt_of_free hb
  have hfollow : s.follow b = b := by rw [FileStore.follow, hb]
  have hba : b ≠ a := by
    rintro rfl
    rw [hb] at ha
    cases ha
  have hcopy : (s.copyEntry a b).entry b = some (.file n) := by
    rw [entry_copyEntry, Function.update_self, ha]
  cases e with
  | refused e => simp [apply] at hok
  | fills x removes =>
    left
    have hwrite : (s.write b x).entry b = some (.file s.next) := by
      rw [entry_write_of_free hfree, hfollow, Function.update_self]
    have hthen : (thenRemove removes a f (s.write b x)).2.follow b = b := by
      have hself := follow_of_file hwrite
      rw [thenRemove]
      split_ifs
      · rw [(still_removeFile hba (by rw [hself]; exact hba)).follow, hself]
      · exact hself
    cases f with
    | start | partway y | finish => simp [apply, EngineEnv.andThen, EngineEnv.writeFile] at hok
    | none | removeOld | removeSrc => exact hthen
  | renames =>
    left
    rw [apply] at hok ⊢
    split_ifs at hok ⊢
    have hne : s.entry a ≠ s.entry b := by
      rw [ha, hb]
      simp
    rw [rename, if_neg hne]
    exact follow_of_file (by rw [entry_unlink, Function.update_of_ne hba, hcopy])
  | links =>
    left
    rw [apply] at hok ⊢
    split_ifs at hok ⊢
    exact follow_of_file hcopy
  | points =>
    right
    rw [apply] at hok ⊢
    split_ifs at hok ⊢
    refine ⟨rfl, ?_⟩
    rw [follow_of_link (by rw [entry_symlink, Function.update_self]), follow_of_file ha]
  | relinks target =>
    obtain ⟨hsrc, _⟩ := hfits
    rw [ha] at hsrc
    cases hsrc

end Effect

namespace EngineEnv

variable (env : EngineEnv) (args : Args)

/-! ## One job -/

/-- A job has nothing to do with the name `k`. -/
structure JobClear (s : Store) (j : Job) (k : Loc) : Prop where
  src : k ≠ args.srcBackend.loc j.src ∧ s.follow k ≠ args.srcBackend.loc j.src
  dst : k ≠ args.dstBackend.loc j.dst ∧ s.follow k ≠ args.dstBackend.loc j.dst
  old : ∀ old, j.old = some old →
    k ≠ args.dstBackend.loc old ∧ s.follow k ≠ args.dstBackend.loc old
  file : ∀ n, s.fileAt k = some n →
    (cleared args s j).fileAt (args.dstBackend.loc j.dst) ≠ some n

variable {env args} {s : Store} {j : Job} {k : Loc} {n : ℕ} {c : Content}

/-- Removing the old file leaves other names alone. -/
theorem still_cleared (h : ∀ old, j.old = some old →
    k ≠ args.dstBackend.loc old ∧ s.follow k ≠ args.dstBackend.loc old) :
    Still s (cleared args s j) k := by
  rw [cleared]
  split
  · rename_i old hold
    split_ifs
    · exact still_unlink (h old hold).1 (h old hold).2
    · exact still_refl s k
  · exact still_refl s k

/-- A job leaves alone a name it has nothing to do with. -/
theorem still_runJob (hk : s.fileAt k = some n) (h : JobClear args s j k) :
    Still s (env.runJob args s j).2 k := by
  have hcleared : Still s (cleared args s j) k := still_cleared h.old
  by_cases hstays : replaces args s j ∧ env.faultOf args j = .removeOld
  · have hrun : (env.runJob args s j).2 = s := by
      rw [runJob, if_pos (by simpa using hstays)]
    rw [hrun]
    exact still_refl s k
  · rw [runJob_eq_apply hstays]
    refine hcleared.trans (Effect.still_apply jobEffect_fits (hcleared.fileAt.trans hk) ?_)
    refine ⟨?_, ?_, ?_⟩
    · rw [hcleared.follow]
      exact h.src
    · rw [hcleared.follow]
      exact h.dst
    · rw [hcleared.fileAt]
      exact h.file

/-- The target of a job that went through reads what the source read once the old file was
out of the way. -/
theorem read_runJob (hread : (cleared args s j).read (args.srcBackend.loc j.src) = some c)
    (hne : (cleared args s j).fileAt (args.dstBackend.loc j.dst) ≠
      (cleared args s j).fileAt (args.srcBackend.loc j.src))
    (hok : (env.runJob args s j).1 = .ok ()) :
    (env.runJob args s j).2.read (args.dstBackend.loc j.dst) = some c := by
  by_cases hstays : replaces args s j ∧ env.faultOf args j = .removeOld
  · rw [runJob, if_pos (by simpa using hstays)] at hok
    cases hok
  · rw [runJob_eq_apply hstays] at hok ⊢
    exact Effect.read_apply jobEffect_fits hread hne hok

/-! ## Subtitles and tracks -/

section SideNames

variable (env args)

/-- The names a subtitle has and may take. -/
def subtitleNames (sub : Text × List Text) : List Loc :=
  args.srcBackend.loc sub.1 :: sub.2.map args.dstBackend.loc

/-- The names of an audio track. -/
def trackNames (track : Text × Text) : List Loc :=
  [args.srcBackend.loc track.1, args.dstBackend.loc track.2]

/-- The names that the subtitles and tracks of a transfer may touch. -/
def sideNames (s : Store) : List Loc :=
  let a := args.srcBackend.loc args.src
  let b := args.dstBackend.loc args.dst
  (env.subtitles (env.mainDone args s).store a b).flatMap (subtitleNames args) ++
    (env.tracks (env.subtitlesDone args s).store a b).flatMap (trackNames args)

end SideNames

/-- A subtitle takes a name that is free. -/
theorem subtitleTarget_spec {size : ℕ} {names : List Text} {name : Text}
    (h : subtitleTarget args s size names = some name) :
    name ∈ names ∧ s.fileAt (args.dstBackend.loc name) = none := by
  induction names with
  | nil => cases h
  | cons first rest ih =>
    rw [subtitleTarget] at h
    split at h
    · rename_i hnone
      obtain rfl := Option.some.inj h
      exact ⟨List.mem_cons_self, Option.map_eq_none_iff.mp hnone⟩
    · split_ifs at h
      obtain ⟨hmem, hfree⟩ := ih h
      exact ⟨List.mem_cons_of_mem _ hmem, hfree⟩

/-- A name apart from a list of names. -/
theorem ne_of_not_mem {names : List Loc} {l : Loc} (hk : k ∉ names ∧ s.follow k ∉ names)
    (hl : l ∈ names) : k ≠ l ∧ s.follow k ≠ l :=
  ⟨fun h => hk.1 (h ▸ hl), fun h => hk.2 (h ▸ hl)⟩

variable {p : Progress}

theorem still_subtitleStep {sub : Text × List Text} (hk : p.store.fileAt k = some n)
    (hnames : k ∉ subtitleNames args sub ∧ p.store.follow k ∉ subtitleNames args sub) :
    Still p.store (env.subtitleStep args p sub).store k := by
  rw [subtitleStep]
  split_ifs
  · exact still_refl _ k
  split
  · exact still_refl _ k
  split
  · exact still_refl _ k
  · rename_i name hname
    obtain ⟨hmem, hfree⟩ := subtitleTarget_spec hname
    have hdst : args.dstBackend.loc name ∈ subtitleNames args sub :=
      List.mem_cons_of_mem _ (List.mem_map_of_mem hmem)
    refine still_runJob hk ⟨ne_of_not_mem hnames List.mem_cons_self, ne_of_not_mem hnames hdst,
      ?_, ?_⟩
    · intro old hold
      cases hold
    · intro m _
      rw [cleared_of_not_replaces (by simp [replaces])]
      simp [hfree]

theorem still_trackStep {track : Text × Text} (hk : p.store.fileAt k = some n)
    (hnames : k ∉ trackNames args track ∧ p.store.follow k ∉ trackNames args track) :
    Still p.store (env.trackStep args p track).store k := by
  rw [trackStep]
  split_ifs
  · exact still_refl _ k
  have hdst : args.dstBackend.loc track.2 ∈ trackNames args track := by simp [trackNames]
  refine still_runJob hk ⟨ne_of_not_mem hnames List.mem_cons_self, ne_of_not_mem hnames hdst,
    ?_, ?_⟩
  · intro old hold
    obtain rfl := Option.some.inj hold
    exact ne_of_not_mem hnames hdst
  · -- Where a track stands at the target, it is removed first.
    intro m _
    by_cases hthere : p.store.isThere (args.dstBackend.loc track.2) = true
    · rw [cleared_of_replaces rfl hthere, fileAt_of_free]
      · simp
      · rw [entry_unlink, Function.update_self]
    · rw [cleared_of_not_replaces (by simpa [replaces] using hthere)]
      have hnone : p.store.fileAt (args.dstBackend.loc track.2) = none := by
        simpa [isThere] using hthere
      simp [hnone]

/-- Steps that leave a name alone leave it alone together. -/
theorem still_foldl {ι : Type} {step : Progress → ι → Progress} {items : List ι}
    {names : ι → List Loc}
    (hstep : ∀ p i, p.store.fileAt k = some n →
      k ∉ names i ∧ p.store.follow k ∉ names i → Still p.store (step p i).store k)
    (hk : p.store.fileAt k = some n)
    (hnames : k ∉ items.flatMap names ∧ p.store.follow k ∉ items.flatMap names) :
    Still p.store (items.foldl step p).store k := by
  refine Run.invariant (fun q : Progress => Still p.store q.store k) (still_refl _ k) ?_
  intro q hq i hi
  refine hq.trans (hstep q i (hq.fileAt.trans hk) ?_)
  rw [hq.follow]
  exact ⟨fun h => hnames.1 (List.mem_flatMap.mpr ⟨i, hi, h⟩),
    fun h => hnames.2 (List.mem_flatMap.mpr ⟨i, hi, h⟩)⟩

/-- What follows the media file leaves alone a name that is none of the side names. -/
theorem still_afterMain (hk : (env.mainDone args s).store.fileAt k = some n)
    (hnames : k ∉ env.sideNames args s ∧
      (env.mainDone args s).store.follow k ∉ env.sideNames args s) :
    Still (env.mainDone args s).store (env.afterMain args (env.mainDone args s)).store k := by
  rw [sideNames, List.mem_append, List.mem_append, not_or, not_or] at hnames
  obtain ⟨⟨hsubs, htracks⟩, hsubs', htracks'⟩ := hnames
  have hsub : Still (env.mainDone args s).store (env.subtitlesDone args s).store k :=
    still_foldl (fun _ _ => still_subtitleStep) hk ⟨hsubs, hsubs'⟩
  rw [afterMain]
  split_ifs
  · exact still_refl _ k
  · exact still_refl _ k
  · refine hsub.trans (still_foldl (fun _ _ => still_trackStep) (hsub.fileAt.trans hk) ?_)
    rw [hsub.follow]
    exact ⟨htracks, htracks'⟩

/-! ## A transfer -/

variable (env args s)

/-- The target of a transfer, and what it leads to once the media file is there, are no side
names. -/
def Own : Prop :=
  args.dstBackend.loc args.dst ∉ env.sideNames args s ∧
    (env.mainDone args s).store.follow (args.dstBackend.loc args.dst) ∉ env.sideNames args s

/-- The media file of a transfer can be read once the old file is out of the way, is not at
the target already, and arrives under a name of its own. -/
structure Arrives (c : Content) : Prop where
  read : (cleared args s (mainJob args)).read (args.srcBackend.loc args.src) = some c
  apart : (cleared args s (mainJob args)).fileAt (args.dstBackend.loc args.dst) ≠
    (cleared args s (mainJob args)).fileAt (args.srcBackend.loc args.src)
  own : env.Own args s

/-- The media file of a transfer is a plain file of this content once the old file is out of
the way, and takes a name that is free and none of the side names. -/
structure Moves (c : Content) : Prop where
  plain : ∃ n, (cleared args s (mainJob args)).entry (args.srcBackend.loc args.src) =
    some (.file n) ∧ (cleared args s (mainJob args)).data n = c
  free : (cleared args s (mainJob args)).entry (args.dstBackend.loc args.dst) = none
  side : args.dstBackend.loc args.dst ∉ env.sideNames args s

/-- A transfer has nothing to do with the name `k`. -/
structure Spares (k : Loc) : Prop where
  main : JobClear args s (mainJob args) k
  side : k ∉ env.sideNames args s ∧ s.follow k ∉ env.sideNames args s

variable {env args s}

/-- **A transfer leaves alone** what it has nothing to do with. -/
theorem still_transfer (hk : s.fileAt k = some n) (h : env.Spares args s k) :
    Still s (env.transfer args s).2.store k := by
  have hmain : Still s (env.mainDone args s).store k := still_runJob hk h.main
  have hafter : Still s (env.afterMain args (env.mainDone args s)).store k := by
    refine hmain.trans (still_afterMain (hmain.fileAt.trans hk) ?_)
    rw [hmain.follow]
    exact h.side
  by_cases hskip : (!args.overFlag && s.isThere (args.dstBackend.loc args.dst)) = true
  · rw [transfer, if_pos hskip]
    exact still_refl s k
  · rw [(transfer_of_not_skipped env hskip).1]
    exact hafter

/-- The media file of a transfer that went through went through. -/
theorem runJob_of_transfer (hok : (env.transfer args s).1 = .ok true) :
    (env.runJob args s (mainJob args)).1 = .ok () ∧
      (env.transfer args s).2 = env.afterMain args (env.mainDone args s) := by
  have hskip : ¬(!args.overFlag && s.isThere (args.dstBackend.loc args.dst)) = true := by
    intro hskip
    rw [transfer, if_pos hskip] at hok
    cases hok
  obtain ⟨hstore, hiff⟩ := transfer_of_not_skipped env hskip
  have herror := hiff.mp hok
  refine ⟨?_, hstore⟩
  cases hrun : (env.runJob args s (mainJob args)).1 with
  | ok u => rfl
  | error e =>
    have hsome : (env.mainDone args s).error = some e := by
      rw [mainDone, advance, hrun]
      rfl
    simp [afterMain, hsome] at herror

/-- **The target of a transfer** that went through reads what the source read. -/
theorem read_transfer (h : env.Arrives args s c) (hok : (env.transfer args s).1 = .ok true) :
    (env.transfer args s).2.store.read (args.dstBackend.loc args.dst) = some c := by
  obtain ⟨hmain, hstore⟩ := runJob_of_transfer hok
  have hread : (env.mainDone args s).store.read (args.dstBackend.loc args.dst) = some c :=
    read_runJob h.read h.apart hmain
  obtain ⟨n, hn, _⟩ := exists_fileAt hread
  rw [hstore, (still_afterMain hn h.own).read, hread]

/-- The media file of such a transfer is a file of its own at the target, unless links are
made. -/
theorem moved_transfer (hop : args.operation ≠ .softlink) (h : env.Moves args s c)
    (hok : (env.transfer args s).1 = .ok true) :
    (env.transfer args s).2.store.read (args.dstBackend.loc args.dst) = some c ∧
      (env.transfer args s).2.store.follow (args.dstBackend.loc args.dst) =
        args.dstBackend.loc args.dst := by
  obtain ⟨hmain, hstore⟩ := runJob_of_transfer hok
  obtain ⟨n, hsrc, rfl⟩ := h.plain
  have hread := read_of_fileAt (fileAt_of_entry hsrc)
  have hne : (cleared args s (mainJob args)).fileAt (args.dstBackend.loc args.dst) ≠
      (cleared args s (mainJob args)).fileAt (args.srcBackend.loc args.src) := by
    rw [fileAt_of_free h.free, fileAt_of_entry hsrc]
    simp
  have hput : (env.mainDone args s).store.read (args.dstBackend.loc args.dst) = _ :=
    read_runJob hread hne hmain
  have hself : (env.mainDone args s).store.follow (args.dstBackend.loc args.dst) =
      args.dstBackend.loc args.dst := by
    rw [mainDone, advance]
    simp only
    by_cases hstays : replaces args s (mainJob args) ∧ env.faultOf args (mainJob args) = .removeOld
    · rw [runJob, if_pos (by simpa using hstays)] at hmain
      cases hmain
    · rw [runJob_eq_apply hstays] at hmain ⊢
      refine (Effect.follow_apply jobEffect_fits hsrc h.free hmain).resolve_right fun hlink => ?_
      exact env.effect_ne_points hop _ _ _ _ _ hlink.1
  obtain ⟨m, hm, _⟩ := exists_fileAt hput
  have hstill := still_afterMain hm ⟨h.side, by rw [hself]; exact h.side⟩
  rw [hstore]
  exact ⟨hstill.read.trans hput, hstill.follow.trans hself⟩

/-- A transfer that may replace a file is never passed over. -/
theorem transfer_ok_of_over {b : Bool} (hover : args.overFlag = true)
    (hok : (env.transfer args s).1 = .ok b) : (env.transfer args s).1 = .ok true := by
  have hskip : ¬(!args.overFlag && s.isThere (args.dstBackend.loc args.dst)) = true := by
    simp [hover]
  rw [(transfer_of_not_skipped env hskip).2]
  rw [transfer, if_neg hskip] at hok
  simp only at hok
  split at hok
  · cases hok
  · rename_i hnone
    exact hnone

/-- A transfer that may not replace a file goes through only where there is none. -/
theorem free_of_transfer (hover : args.overFlag = false)
    (hok : (env.transfer args s).1 = .ok true) :
    s.isThere (args.dstBackend.loc args.dst) = false := by
  by_contra hthere
  rw [transfer, if_pos (by simpa [hover] using hthere)] at hok
  cases hok

/-- A new file arrives at a target that is free. -/
theorem arrives_new (hover : args.overFlag = false)
    (hread : s.read (args.srcBackend.loc args.src) = some c)
    (hfree : s.isThere (args.dstBackend.loc args.dst) = false) (hown : env.Own args s) :
    env.Arrives args s c := by
  have hcleared : cleared args s (mainJob args) = s :=
    cleared_of_not_replaces (by simp [replaces, mainJob, hover])
  obtain ⟨n, hn, _⟩ := exists_fileAt hread
  have hnone : s.fileAt (args.dstBackend.loc args.dst) = none := by simpa [isThere] using hfree
  refine ⟨by rw [hcleared, hread], ?_, hown⟩
  rw [hcleared, hnone, hn]
  simp

/-- A file that takes the place of another under its name arrives, where the source is neither
that file nor a link to it. -/
theorem arrives_same (hover : args.overFlag = true) (hold : args.oldFile = some args.dst)
    (hread : s.read (args.srcBackend.loc args.src) = some c)
    (hsrc : args.srcBackend.loc args.src ≠ args.dstBackend.loc args.dst ∧
      s.follow (args.srcBackend.loc args.src) ≠ args.dstBackend.loc args.dst)
    (hown : env.Own args s) : env.Arrives args s c := by
  have hjob : (mainJob args).old = some args.dst := by rw [mainJob, if_pos hover, hold]
  have hstill : Still s (cleared args s (mainJob args)) (args.srcBackend.loc args.src) := by
    refine still_cleared fun old h => ?_
    obtain rfl := Option.some.inj (hjob.symm.trans h)
    exact hsrc
  have hfree : (cleared args s (mainJob args)).fileAt (args.dstBackend.loc args.dst) = none := by
    by_cases hthere : s.isThere (args.dstBackend.loc args.dst) = true
    · rw [cleared_of_replaces hjob hthere]
      exact fileAt_of_free (by rw [entry_unlink, Function.update_self])
    · rw [cleared_of_not_replaces (by rw [replaces_of_old hjob]; exact hthere)]
      simpa [isThere] using hthere
  obtain ⟨n, hn, _⟩ := exists_fileAt hread
  refine ⟨hstill.read.trans hread, ?_, hown⟩
  rw [hfree, hstill.fileAt, hn]
  simp

end EngineEnv

end WolfNas
