import WolfNas.Transfer.Arrival

/-!
# What arrives of a directory

A directory is transferred file by file.  A file that stands at the target already is passed
over, whatever it holds, so what arrives is the directory only where no other file was there.

## Main definitions

* `EngineEnv.srcOf`, `EngineEnv.dstOf` — the two places of a file of the directory.
* `EngineEnv.DirArrives` — the condition on the names of a directory transfer.

## Main results

* `EngineEnv.read_blurayDir`, `EngineEnv.follow_blurayDir` — the target of a disc transfer that
  went through holds every file of the disc.
* `EngineEnv.still_blurayDir` — it leaves other names alone.
-/

namespace WolfNas

open FileStore

namespace EngineEnv

variable (env : EngineEnv) (args : Args)

/-- The place of a file of the directory at the source. -/
def srcOf (rel : Text) : Loc := args.srcBackend.loc (Path.join args.src rel)

/-- The place of a file of the directory at the target. -/
def dstOf (rel : Text) : Loc := args.dstBackend.loc (Path.join args.dst rel)

/-- The names a directory transfer may touch. -/
def dirNames (files : List Text) : List Loc := files.flatMap fun rel => [srcOf args rel, dstOf args rel]

/-- Every file of the directory is a file and not a link, is listed once, and has a target of
its own, which is free or holds the file's content already. -/
structure DirArrives (s : Store) (files : List Text) : Prop where
  plain : ∀ rel ∈ files, ∃ n, s.entry (srcOf args rel) = some (.file n)
  sources : (files.map (srcOf args)).Nodup
  targets : (files.map (dstOf args)).Nodup
  apart : ∀ rel ∈ files, ∀ rel' ∈ files, srcOf args rel ≠ dstOf args rel'
  room : ∀ rel ∈ files, s.entry (dstOf args rel) = none ∨
    (∃ n, s.entry (dstOf args rel) = some (.file n)) ∧
      s.read (dstOf args rel) = s.read (srcOf args rel)

variable {env args} {s : Store} {k : Loc} {n : ℕ} {files : List Text} {rel : Text}

private theorem foldl_dirStep_error {e : OsError} :
    files.foldl (env.dirStep args) (.error e, s) = (.error e, s) := by
  induction files with
  | nil => rfl
  | cons rel files ih => exact ih

/-- One file of a directory leaves other names alone. -/
theorem still_dirStep (hk : s.fileAt k = some n)
    (hnames : k ∉ dirNames args [rel] ∧ s.follow k ∉ dirNames args [rel]) :
    Still s (env.dirStep args (.ok (), s) rel).2 k := by
  rw [dirStep, andThen]
  simp only
  split_ifs with hthere
  · exact still_refl s k
  · rw [execute_eq_apply]
    refine Effect.still_apply (effect_fits ..) hk ⟨ne_of_not_mem hnames ?_, ne_of_not_mem hnames ?_, ?_⟩
    · simp [dirNames, srcOf]
    · simp [dirNames, dstOf]
    · intro m _ hm
      rw [isThere, hm] at hthere
      simp at hthere

private theorem dirNames_cons :
    dirNames args (rel :: files) = dirNames args [rel] ++ dirNames args files := by
  simp [dirNames]

/-- A directory transfer leaves other names alone. -/
theorem still_dir (hk : s.fileAt k = some n)
    (hnames : k ∉ dirNames args files ∧ s.follow k ∉ dirNames args files) :
    Still s (files.foldl (env.dirStep args) (.ok (), s)).2 k := by
  induction files generalizing s with
  | nil => exact still_refl s k
  | cons rel files ih =>
    rw [dirNames_cons, List.mem_append, List.mem_append, not_or, not_or] at hnames
    obtain ⟨⟨hhead, htail⟩, hhead', htail'⟩ := hnames
    have hstep : Still s (env.dirStep args (.ok (), s) rel).2 k := still_dirStep hk ⟨hhead, hhead'⟩
    rw [List.foldl_cons]
    rcases hr : env.dirStep args (.ok (), s) rel with ⟨_ | _, s'⟩
    · rw [foldl_dirStep_error]
      rwa [hr] at hstep
    · rw [hr] at hstep
      refine hstep.trans (ih (hstep.fileAt.trans hk) ?_)
      rw [hstep.follow]
      exact ⟨htail, htail'⟩

/-- A step that went through puts its file in place, under a name that leads to itself or back
to the source, and leaves the free names of the others free. -/
private theorem dirStep_spec {s' : Store} (h : DirArrives args s (rel :: files))
    (hr : env.dirStep args (.ok (), s) rel = (.ok (), s')) :
    s'.read (dstOf args rel) = s.read (srcOf args rel) ∧
      (s'.follow (dstOf args rel) = dstOf args rel ∨
        args.operation = .softlink ∧ s'.follow (dstOf args rel) = srcOf args rel) ∧
      ∀ l, l ≠ srcOf args rel → l ≠ dstOf args rel → s.entry l = none → s'.entry l = none := by
  obtain ⟨n, hsrc⟩ := h.plain rel List.mem_cons_self
  have hread : s.read (srcOf args rel) = some (s.data n) := read_of_fileAt (fileAt_of_entry hsrc)
  rw [dirStep, andThen] at hr
  simp only at hr
  rcases h.room rel List.mem_cons_self with hfree | ⟨⟨m, hdst⟩, hsame⟩
  · have hthere : ¬s.isThere (dstOf args rel) = true := by
      rw [isThere, fileAt_of_free hfree]
      simp
    rw [dstOf] at hthere
    rw [if_neg hthere, execute_eq_apply] at hr
    have hfits := env.effect_fits s args.operation args.srcBackend args.dstBackend
      (Path.join args.src rel) (Path.join args.dst rel)
    have hne : s.fileAt (dstOf args rel) ≠ s.fileAt (srcOf args rel) := by
      rw [fileAt_of_free hfree, fileAt_of_entry hsrc]
      simp
    obtain ⟨hok, hs'⟩ := Prod.ext_iff.mp hr
    simp only at hok hs'
    rw [← hs', hread]
    refine ⟨?_, ?_, ?_⟩
    · exact Effect.read_apply hfits hread hne hok
    · refine (Effect.follow_apply hfits hsrc hfree hok).imp_right fun h => ⟨?_, h.2⟩
      by_contra hop
      exact env.effect_ne_points hop _ _ _ _ _ h.1
    · intro l hla hlb hl
      exact (Effect.entry_apply hfree hla hlb).trans hl
  · have hthere : s.isThere (dstOf args rel) = true := by
      rw [isThere, fileAt_of_entry hdst]
      rfl
    rw [dstOf] at hthere
    rw [if_pos hthere] at hr
    obtain rfl : s = s' := congrArg Prod.snd hr
    exact ⟨hsame, .inl (follow_of_file hdst), fun l _ _ hl => hl⟩

/-- **The target of a directory transfer** that went through holds every file of the
directory, and as a file of its own unless links are made. -/
theorem dir_spec (h : DirArrives args s files)
    (hok : (files.foldl (env.dirStep args) (.ok (), s)).1 = .ok ()) :
    ∀ rel ∈ files,
      (files.foldl (env.dirStep args) (.ok (), s)).2.read (dstOf args rel) =
        s.read (srcOf args rel) ∧
      (args.operation ≠ .softlink →
        (files.foldl (env.dirStep args) (.ok (), s)).2.follow (dstOf args rel) =
          dstOf args rel) := by
  induction files generalizing s with
  | nil =>
    intro rel hrel
    cases hrel
  | cons rel files ih =>
    rw [List.foldl_cons] at hok ⊢
    rcases hr : env.dirStep args (.ok (), s) rel with ⟨_ | _, s'⟩
    · rw [hr, foldl_dirStep_error] at hok
      cases hok
    rw [hr] at hok
    obtain ⟨hput, hfollow, hfree⟩ := dirStep_spec h hr
    have hsources := List.nodup_cons.mp h.sources
    have htargets := List.nodup_cons.mp h.targets
    -- The first file has names of its own.
    have hsrc_ne : ∀ rel' ∈ files, srcOf args rel' ≠ srcOf args rel := fun rel' hrel' heq =>
      hsources.1 (heq ▸ List.mem_map_of_mem hrel')
    have hdst_ne : ∀ rel' ∈ files, dstOf args rel' ≠ dstOf args rel := fun rel' hrel' heq =>
      htargets.1 (heq ▸ List.mem_map_of_mem hrel')
    have hcross : ∀ rel' ∈ files, srcOf args rel' ≠ dstOf args rel := fun rel' hrel' =>
      h.apart rel' (List.mem_cons_of_mem _ hrel') rel List.mem_cons_self
    have hcross' : ∀ rel' ∈ files, dstOf args rel' ≠ srcOf args rel := fun rel' hrel' =>
      (h.apart rel List.mem_cons_self rel' (List.mem_cons_of_mem _ hrel')).symm
    -- A plain file other than the first two names stays as it is.
    have hplain : ∀ l m, s.entry l = some (.file m) → l ≠ srcOf args rel → l ≠ dstOf args rel →
        Still s s' l := by
      intro l m hl hla hlb
      have hnames : l ∉ dirNames args [rel] ∧ s.follow l ∉ dirNames args [rel] := by
        rw [follow_of_file hl]
        simp [dirNames, hla, hlb]
      have hstill : Still s (env.dirStep args (.ok (), s) rel).2 l :=
        still_dirStep (fileAt_of_entry hl) hnames
      rwa [hr] at hstill
    have hsrc_still : ∀ rel' ∈ files, Still s s' (srcOf args rel') := by
      intro rel' hrel'
      obtain ⟨m, hm⟩ := h.plain rel' (List.mem_cons_of_mem _ hrel')
      exact hplain _ m hm (hsrc_ne rel' hrel') (hcross rel' hrel')
    have hrest : DirArrives args s' files := by
      refine ⟨?_, hsources.2, htargets.2, ?_, ?_⟩
      · intro rel' hrel'
        obtain ⟨m, hm⟩ := h.plain rel' (List.mem_cons_of_mem _ hrel')
        exact ⟨m, (hsrc_still rel' hrel').entry.trans hm⟩
      · intro rel' hrel' rel'' hrel''
        exact h.apart rel' (List.mem_cons_of_mem _ hrel') rel'' (List.mem_cons_of_mem _ hrel'')
      · intro rel' hrel'
        rcases h.room rel' (List.mem_cons_of_mem _ hrel') with hnone | ⟨⟨m, hm⟩, hsame⟩
        · exact .inl (hfree _ (hcross' rel' hrel') (hdst_ne rel' hrel') hnone)
        · have hdst_still := hplain _ m hm (hcross' rel' hrel') (hdst_ne rel' hrel')
          refine .inr ⟨⟨m, hdst_still.entry.trans hm⟩, ?_⟩
          rw [hdst_still.read, (hsrc_still rel' hrel').read, hsame]
    intro rel' hrel'
    rcases List.mem_cons.mp hrel' with rfl | hrel'
    · obtain ⟨n, hsrc⟩ := h.plain rel' List.mem_cons_self
      rw [read_of_fileAt (fileAt_of_entry hsrc)] at hput ⊢
      obtain ⟨m, hm, _⟩ := exists_fileAt hput
      have hown : dstOf args rel' ∉ dirNames args files ∧ srcOf args rel' ∉ dirNames args files := by
        simp only [dirNames, List.mem_flatMap, List.mem_cons, List.not_mem_nil, or_false,
          not_exists, not_and, not_or]
        exact ⟨fun q hq => ⟨(hcross q hq).symm, (hdst_ne q hq).symm⟩,
          fun q hq => ⟨(hsrc_ne q hq).symm, (hcross' q hq).symm⟩⟩
      have hnames : dstOf args rel' ∉ dirNames args files ∧
          s'.follow (dstOf args rel') ∉ dirNames args files := by
        refine ⟨hown.1, ?_⟩
        rcases hfollow with heq | ⟨_, heq⟩ <;> rw [heq]
        · exact hown.1
        · exact hown.2
      have hstill : Still s' (files.foldl (env.dirStep args) (.ok (), s')).2 (dstOf args rel') :=
        still_dir hm hnames
      refine ⟨by rw [hstill.read, hput], fun hop => ?_⟩
      rw [hstill.follow]
      exact hfollow.resolve_right fun hlink => hop hlink.1
    · obtain ⟨hread, hself⟩ := ih hrest hok rel' hrel'
      exact ⟨by rw [hread, (hsrc_still rel' hrel').read], hself⟩

/-- The blacklist entry of a disc changes no file. -/
private theorem transferBlurayDir_spec (hok : (env.transferBlurayDir args s files).1 = .ok ()) :
    (files.foldl (env.dirStep args) (.ok (), s)).1 = .ok () ∧
      (env.transferBlurayDir args s files).2 = (files.foldl (env.dirStep args) (.ok (), s)).2 := by
  rw [transferBlurayDir] at hok ⊢
  rcases hr : files.foldl (env.dirStep args) (.ok (), s) with ⟨_ | _, s'⟩
  · rw [hr] at hok
    cases hok
  · refine ⟨rfl, ?_⟩
    rw [andThen]
    split_ifs <;> rfl

/-- **The target of a disc transfer** that went through holds every file of the disc. -/
theorem read_blurayDir (h : DirArrives args s files)
    (hok : (env.transferBlurayDir args s files).1 = .ok ()) :
    ∀ rel ∈ files, (env.transferBlurayDir args s files).2.read (dstOf args rel) =
      s.read (srcOf args rel) := by
  obtain ⟨hfold, hstore⟩ := transferBlurayDir_spec hok
  intro rel hrel
  rw [hstore]
  exact (dir_spec h hfold rel hrel).1

/-- It holds them as files of its own, unless links are made. -/
theorem follow_blurayDir (h : DirArrives args s files) (hop : args.operation ≠ .softlink)
    (hok : (env.transferBlurayDir args s files).1 = .ok ()) :
    ∀ rel ∈ files, (env.transferBlurayDir args s files).2.follow (dstOf args rel) =
      dstOf args rel := by
  obtain ⟨hfold, hstore⟩ := transferBlurayDir_spec hok
  intro rel hrel
  rw [hstore]
  exact (dir_spec h hfold rel hrel).2 hop

/-- A disc transfer leaves other names alone. -/
theorem still_blurayDir (hk : s.fileAt k = some n)
    (hnames : k ∉ dirNames args files ∧ s.follow k ∉ dirNames args files) :
    Still s (env.transferBlurayDir args s files).2 k := by
  have hstill : Still s (files.foldl (env.dirStep args) (.ok (), s)).2 k := still_dir hk hnames
  rw [transferBlurayDir]
  rcases hr : files.foldl (env.dirStep args) (.ok (), s) with ⟨_ | _, s'⟩
  · rw [hr] at hstill
    exact hstill
  · rw [hr] at hstill
    rw [andThen]
    split_ifs <;> exact hstill

end EngineEnv

end WolfNas
