import WolfNas.Rename.Executor

/-!
# Paths of a storage

A job spells its paths with slashes and normalises them.  What it does then rests on the
storage: a path that is joined with a name stands for an entry of the directory, and its
spelling does not matter.  A name with a backslash is spelled as two.

## Main definitions

* `ProperName` — a name that a path keeps.
* `IsMedia` — the name of a media file.
* `StorageHandle.Regular` — a storage resolves paths name by name.

## Main results

* `normPath_normPath`, `not_mem_normPath` — normalised paths.
* `proper_auxTarget`, `not_isMedia_of_auxTarget` — what an auxiliary file is called.
-/

namespace WolfNas

open Text

/-- A name that a path keeps. -/
def ProperName (n : Text) : Prop := Path.IsName n ∧ '\\' ∉ n

instance (n : Text) : Decidable (ProperName n) := inferInstanceAs (Decidable (_ ∧ _))

/-- The name of a media file. -/
def IsMedia (n : Text) : Prop := lower (Path.splitext n).2 ∈ mediaExt

instance (n : Text) : Decidable (IsMedia n) := inferInstanceAs (Decidable (_ ∈ _))

variable {p n name oldBase newBase : Text}

/-! ## Normalised paths -/

theorem slashed_eq_self (h : '\\' ∉ p) : (p.map fun c => if c = '\\' then '/' else c) = p := by
  have hsame : ∀ c ∈ p, (if c = '\\' then '/' else c) = c := by
    intro c hc
    rw [if_neg]
    rintro rfl
    exact h hc
  rw [List.map_congr_left hsame, List.map_id']

theorem not_mem_normPath (p : Text) : '\\' ∉ normPath p := by
  intro h
  rcases Path.mem_normpath h with h | h | h
  · obtain ⟨c, -, hc⟩ := List.mem_map.mp h
    split_ifs at hc with hslash
    · exact absurd hc (by decide)
    · exact hslash hc
  · exact absurd h (by decide)
  · exact absurd h (by decide)

theorem normPath_ne_nil (p : Text) : normPath p ≠ [] := Path.normpath_ne_nil _

/-- A path is normalised once. -/
theorem normPath_normPath (p : Text) : normPath (normPath p) = normPath p := by
  rw [normPath, slashed_eq_self (not_mem_normPath p), normPath, Path.normpath_normpath]

@[simp] theorem dirnameOf_normPath (p : Text) : dirnameOf (normPath p) = dirnameOf p := by
  rw [dirnameOf, normPath_normPath, dirnameOf]

@[simp] theorem basenameOf_normPath (p : Text) : basenameOf (normPath p) = basenameOf p := by
  rw [basenameOf, normPath_normPath, basenameOf]

theorem not_mem_dirnameOf (p : Text) : '\\' ∉ dirnameOf p := by
  intro h
  refine not_mem_normPath p ?_
  rw [dirnameOf, Path.dirname] at h
  split_ifs at h
  · exact (List.rdropWhile_prefix _ _).subset h
  · exact (List.rdropWhile_prefix _ _).subset ((List.rdropWhile_prefix _ _).subset h)

theorem not_mem_basenameOf (p : Text) : '\\' ∉ basenameOf p := fun h =>
  not_mem_normPath p ((List.rtakeWhile_suffix _ _).subset h)

theorem not_mem_join {q : Text} (hp : '\\' ∉ p) (hq : '\\' ∉ q) : '\\' ∉ Path.join p q := by
  rw [Path.join]
  split_ifs
  · exact hq
  · simp [hp, hq]
  · simp [hp, hq]

/-! ## Auxiliary files -/

/-- The extensions of the files that follow a main file. -/
def auxExts : List Text := subtitleExts ++ audioExts ++ [of ".nfo"]

theorem not_mediaExt_of_auxExts : ∀ e ∈ auxExts, e ∉ mediaExt := by decide

theorem auxExts_plain : ∀ e ∈ auxExts, 3 ≤ e.length ∧ '/' ∉ e ∧ '\\' ∉ e := by decide

/-- A name ends in an extension. -/
theorem properName_append {e : Text} (hn : '/' ∉ n ∧ '\\' ∉ n) (he : e ∈ auxExts) :
    ProperName (n ++ e) := by
  obtain ⟨hlength, hslash, hback⟩ := auxExts_plain e he
  have hne : ∀ t : Text, t.length < 3 → n ++ e ≠ t := by
    intro t ht heq
    have hlen := congrArg List.length heq
    rw [List.length_append] at hlen
    omega
  exact ⟨⟨hne _ (by simp), hne _ (by simp), hne _ (by simp), by simp [hn.1, hslash]⟩,
    by simp [hn.2, hback]⟩

/-- The name that an auxiliary file gets ends in an extension that its own name has. -/
theorem auxTarget_eq_some (h : auxTarget oldBase newBase p = some name) :
    ∃ rest e, name = newBase ++ rest ++ e ∧ e ∈ auxExts ∧
      rest ⊆ (Path.splitext (basenameOf p)).1 ∧ lower (Path.splitext (basenameOf p)).2 = e := by
  simp only [auxTarget] at h
  split_ifs at h with hsubtitle haudio hnfo
  · refine ⟨_, _, (Option.some.inj h).symm, ?_, List.drop_subset _ _, rfl⟩
    exact List.mem_append_left _ (List.mem_append_left _ hsubtitle.1)
  · refine ⟨[], _, by simpa using (Option.some.inj h).symm, ?_, List.nil_subset _, rfl⟩
    exact List.mem_append_left _ (List.mem_append_right _ haudio.1)
  · refine ⟨[], _, by simpa using (Option.some.inj h).symm, ?_, List.nil_subset _, hnfo.1⟩
    exact List.mem_append_right _ List.mem_cons_self

theorem not_isMedia_of_auxTarget (h : auxTarget oldBase newBase p = some name) :
    ¬IsMedia (basenameOf p) := by
  obtain ⟨-, e, -, he, -, hext⟩ := auxTarget_eq_some h
  rw [IsMedia, hext]
  exact not_mediaExt_of_auxExts e he

theorem proper_auxTarget (h : auxTarget oldBase newBase p = some name)
    (hbase : '/' ∉ newBase ∧ '\\' ∉ newBase) : ProperName name := by
  obtain ⟨rest, e, rfl, he, hrest, -⟩ := auxTarget_eq_some h
  have hstem := Path.splitext_fst_subset (basenameOf p)
  have hslash : '/' ∉ rest := fun hc => Path.basename_unslashed _ (hstem (hrest hc))
  have hback : '\\' ∉ rest := fun hc => not_mem_basenameOf p (hstem (hrest hc))
  exact properName_append ⟨by simp [hbase.1, hslash], by simp [hbase.2, hback]⟩ he

theorem plain_baseOf (p : Text) : '/' ∉ baseOf p ∧ '\\' ∉ baseOf p :=
  ⟨fun h => Path.basename_unslashed _ (Path.splitext_fst_subset _ h),
    fun h => not_mem_basenameOf p (Path.splitext_fst_subset _ h)⟩

/-! ## Storages -/

/-- A storage resolves paths name by name. -/
structure StorageHandle.Regular {S : Type} (b : StorageHandle S) : Prop where
  place_normPath : ∀ p, '\\' ∉ p → b.place (normPath p) = b.place p
  place_join : ∀ p n, '\\' ∉ p → ProperName n → b.place (Path.join p n) = b.place p ++ [n]
  place_childPath : ∀ p n, '\\' ∉ p → ProperName n → b.place (b.childPath p n) = b.place p ++ [n]
  basenameOf_childPath : ∀ p n, '\\' ∉ p → ProperName n → basenameOf (b.childPath p n) = n
  not_mem_childPath : ∀ p n, '\\' ∉ p → ProperName n → '\\' ∉ b.childPath p n
  place_eq : ∀ p, '\\' ∉ p → ProperName (basenameOf p) →
    b.place p = b.place (dirnameOf p) ++ [basenameOf p]

end WolfNas
