import WolfNas.Transfer.DestPath

/-!
# Where the values are filed as they are

The destination of an item lies in its root, segment by segment as the template has it, exactly
where the fields are harmless.  Both are brought down to the names that the path is joined from:
what the names look like is read off the parts of the path in one direction, and the parts of the
path off the names in the other.

## Main results

* `Resolver.unread_iff`, `Resolver.unslashed_names_iff` — braces and slashes are those of the
  values.
* `Resolver.destination_movie`, `Resolver.destination_profile`, `Resolver.destination_tv` — what
  is joined.
* `Resolver.literallyPlaced_iff` — when the destination is what the template says.
-/

namespace WolfNas

open Text NameFormat

namespace Resolver

variable {r : Resolver} {env : NamingEnv} {root : Text} {m : NamingItem}
  {snapshot : Option Snapshot} {fenv : Format.Env} {l : List Piece}

/-! ## Braces -/

theorem valid_of_mem_again {p : Piece} (hp : p.Valid) {slot : Format.Slot}
    (hslot : slot ∈ p.again fenv) : slot.Valid := by
  cases p with
  | slot s =>
    obtain ⟨hs, -⟩ := List.mem_filter.mp hslot
    obtain rfl := List.mem_singleton.mp hs
    exact hp
  | optional key payload =>
    rw [Piece.again] at hslot
    split at hslot
    · simp at hslot
    · split at hslot
      · exact hp.2.1 slot hslot
      · exact hp.2.1 slot (List.mem_filter.mp hslot).1

/-- The braces of a slot are those of its value. -/
theorem unbraced_slotLiteral_iff {slot : Format.Slot} (hslot : slot.Valid) :
    Format.Unbraced (slotLiteral fenv slot) ↔ ∀ key, valueKey slot = some key →
      ∀ v, fenv.fields key = some v → Format.Unbraced v.str := by
  cases slot with
  | text t =>
    have ht : Format.Unbraced (slotLiteral fenv (.text t)) := hslot
    simpa [valueKey] using ht
  | field key =>
    cases hv : fenv.fields key with
    | none => simp [valueKey, slotLiteral, hv, Format.Unbraced]
    | some v => simp [valueKey, slotLiteral, hv]
  | padded key width =>
    simp only [Format.Unbraced, slotLiteral, mem_replacePadding_iff (show '{'.isDigit = false by decide),
      mem_replacePadding_iff (show '}'.isDigit = false by decide), valueKey, Option.some.injEq]
    cases hv : fenv.fields key with
    | none => simp [hv]
    | some v => simp [hv]

theorem unread_iff (hvalid : ∀ p ∈ l, p.Valid) :
    Unread fenv l ↔ ∀ p ∈ l, ∀ slot ∈ p.again fenv, ∀ key, valueKey slot = some key →
      ∀ v, fenv.fields key = some v → Format.Unbraced v.str := by
  constructor
  · intro h p hp slot hslot
    exact (unbraced_slotLiteral_iff (valid_of_mem_again (hvalid p hp) hslot)).mp (h p hp slot hslot)
  · intro h p hp slot hslot
    exact (unbraced_slotLiteral_iff (valid_of_mem_again (hvalid p hp) hslot)).mpr (h p hp slot hslot)

/-! ## Slashes -/

/-- The names of a format have no slash exactly where no value that is not cleaned has one. -/
theorem unslashed_iff : (∀ name ∈ names (env.formatEnv m snapshot) l, '/' ∉ name) ↔
    ∀ key ∈ valueKeys (env.formatEnv m snapshot) l, key ∉ cleanedKeys →
      ∀ v, env.getFormatDict m snapshot key = some v → '/' ∉ v.str := by
  have hnames := @slash_mem_names_iff (env.formatEnv m snapshot) l
  constructor
  · intro h key hkey _ v hv hslash
    obtain ⟨name, hname, hmem⟩ := hnames.mpr ⟨key, hkey, v, hv, hslash⟩
    exact h name hname hmem
  · intro h name hname hmem
    obtain ⟨key, hkey, v, hv, hslash⟩ := hnames.mp ⟨name, hname, hmem⟩
    by_cases hclean : key ∈ cleanedKeys
    · exact env.cleaned_unslashed m snapshot hclean hv hslash
    · exact h key hkey hclean v hv hslash

theorem slash_mem_withPart_iff {fileName : Text} : '/' ∈ m.withPart fileName ↔ '/' ∈ fileName := by
  have hpart : ∀ part, partSuffix (orEmpty m.orgString) = some part → '/' ∉ part := by
    intro part hpart hmem
    have hlist := List.mem_of_find?_eq_some hpart
    obtain ⟨word, -, rfl⟩ := List.mem_map.mp hlist
    have hstem := Path.splitext_fst_subset _ (List.mem_of_mem_drop hmem)
    exact Path.basename_unslashed _ hstem
  rw [NamingItem.withPart]
  split
  · rename_i part hsome
    split
    · rfl
    · simp [hpart part hsome]
  · rfl

theorem extrasName_unslashed {fileName : Text} (hlabel : extrasSpLabel (orEmpty m.orgString) ≠ []) :
    '/' ∉ m.extrasName
      (((env.getFormatDict m snapshot (of "title")).map FormatValue.str).getD []) fileName := by
  have htitle : '/' ∉ strip
      (((env.getFormatDict m snapshot (of "title")).map FormatValue.str).getD []) := by
    intro h
    have hmem := strip_subset h
    cases hv : env.getFormatDict m snapshot (of "title") with
    | none => simp [hv] at hmem
    | some v =>
      exact env.cleaned_unslashed m snapshot (by decide) hv (by simpa [hv] using hmem)
  have hext : '/' ∉ if (Path.splitext (orEmpty m.orgString)).2 = [] then (Path.splitext fileName).2
      else (Path.splitext (orEmpty m.orgString)).2 := by
    split
    · exact Path.splitext_snd_unslashed _
    · exact Path.splitext_snd_unslashed _
  have hsp : '/' ∉ extrasSpLabel (orEmpty m.orgString) := by
    rw [extrasSpLabel]
    split
    · rename_i n _
      intro h
      rcases List.mem_append.mp h with h | h
      · exact absurd h (by decide)
      · exact absurd (isDigit_of_mem_pad2 h) (by decide)
    · simp
  have hdash : '/' ∉ of " - " := by decide
  simp only [NamingItem.extrasName, if_neg hlabel]
  split
  · simp only [List.mem_append, not_or]
    exact ⟨hsp, hext⟩
  · simp only [List.mem_append, not_or]
    exact ⟨⟨⟨htitle, hdash⟩, hsp⟩, hext⟩

/-! ## Layouts -/

theorem isName_safeCategoryName {value : Option Text} (h : safeCategoryName value ≠ []) :
    Path.IsName (safeCategoryName value) := by
  simp only [safeCategoryName] at h ⊢
  split at h
  · exact absurd rfl h
  · rename_i hdots
    split at h
    · exact absurd rfl h
    · rename_i hslash
      rw [if_neg hdots, if_neg hslash]
      simp only [not_or] at hdots
      exact ⟨hdots.1, hdots.2.1, hdots.2.2, fun hmem => hslash (.inl hmem)⟩

theorem parts_layoutRoot (hroot : root ≠ []) :
    Path.parts (r.layoutRoot root m) = Path.parts root ++ r.layoutNames m ∧
      r.layoutRoot root m ≠ [] := by
  simp only [layoutRoot, layoutNames]
  split
  · rename_i hflag
    have hname := isName_safeCategoryName hflag.2
    refine ⟨?_, Path.join_ne_nil hroot⟩
    simpa using @Path.parts_join_names root [safeCategoryName m.category] hroot (by simpa using hname)
  · exact ⟨by simp, hroot⟩

/-- A rendered format is the names of its segments. -/
theorem render_names (h : filled fenv (source l) = .ok (literal fenv l)) :
    render fenv (source l) = .ok (List.intercalate ['/'] (names fenv l)) := by
  rw [render_literal h, tidy_literal]

/-! ## Names -/

theorem isName_iff {s : Text} : Path.IsName s ↔ '/' ∉ s ∧ s ∉ [[], of ".", of ".."] := by
  have hdot : of "." = ['.'] := rfl
  have hdots : of ".." = ['.', '.'] := rfl
  simp only [Path.IsName, hdot, hdots, List.mem_cons, List.not_mem_nil, or_false, not_or]
  constructor
  · intro ⟨hne, hone, htwo, hslash⟩
    exact ⟨hslash, hne, hone, htwo⟩
  · intro ⟨hslash, hne, hone, htwo⟩
    exact ⟨hne, hone, htwo, hslash⟩

/-- The names of a template have no slash exactly where no value that is not cleaned has one. -/
theorem unslashed_names_iff {t : Template} :
    (∀ name ∈ t.names (env.formatEnv m snapshot) m, '/' ∉ name) ↔
      ∀ l ∈ t.used m, ∀ key ∈ valueKeys (env.formatEnv m snapshot) l, key ∉ cleanedKeys →
        ∀ v, env.getFormatDict m snapshot key = some v → '/' ∉ v.str := by
  have hextras : '/' ∉ of "extras" := by decide
  have hused : (∀ name ∈ t.names (env.formatEnv m snapshot) m, '/' ∉ name) ↔
      ∀ l ∈ t.used m, ∀ name ∈ names (env.formatEnv m snapshot) l, '/' ∉ name := by
    cases t with
    | movie dir file =>
      simp only [Template.names, Template.used, List.mem_append, or_imp, forall_and]
      split
      · simp [hextras]
      · simp
    | profile path =>
      simp only [Template.names, Template.used, List.mem_singleton, forall_eq]
      rcases List.eq_nil_or_concat (names (env.formatEnv m snapshot) path) with hnil | ⟨init, last, hlast⟩
      · simp [hnil]
      · simp only [hlast, List.concat_eq_append, List.dropLast_concat, List.getLast?_concat,
          Option.map_some, Option.toList_some, List.mem_append, List.mem_singleton, or_imp,
          forall_and, forall_eq]
        by_cases hnil : last = []
        · simp [hnil]
        · simp [hnil, slash_mem_withPart_iff]
    | tv dir season file =>
      simp only [Template.names, Template.used]
      by_cases hx : m.isExtras = true
      · by_cases hlabel : extrasSpLabel (orEmpty m.orgString) = []
        · simp [hx, hlabel, hextras, or_imp, forall_and]
        · have hname := @extrasName_unslashed env m snapshot
            (tidy (literal (env.formatEnv m snapshot) file)) hlabel
          have hname' : '/' ∉ m.extrasName ((((env.formatEnv m snapshot).fields (of "title")).map
              FormatValue.str).getD []) (tidy (literal (env.formatEnv m snapshot) file)) := hname
          simp [hx, hlabel, hextras, hname', or_imp, forall_and]
      · simp [hx, or_imp, forall_and]
  rw [hused]
  constructor
  · intro h l hl
    exact unslashed_iff.mp (h l hl)
  · intro h l hl
    exact unslashed_iff.mpr (h l hl)

/-- The parts of a path behind a root are names, where none is a parent reference. -/
theorem isName_of_parts {p : Text} {base l : List Text} (hparts : Path.parts p = base ++ l)
    (hinside : of ".." ∉ l) : ∀ s ∈ l, Path.IsName s := by
  intro s hs
  obtain ⟨hne, hdot, hslash⟩ := Path.mem_parts (p := p) (s := s) (by simp [hparts, hs])
  refine ⟨hne, hdot, ?_, hslash⟩
  intro htwo
  subst htwo
  exact hinside hs

/-! ## What is joined -/

/-- The destination is made from the names of the template. -/
def Lands (r : Resolver) (env : NamingEnv) (root : Text) (m : NamingItem)
    (snapshot : Option Snapshot) (t : Template) : Prop :=
  (∃ dir file, r.destination env root m snapshot = .ok (some dir, file) ∧
    Path.parts (Path.join dir file) =
      Path.parts root ++ r.layoutNames m ++ t.names (env.formatEnv m snapshot) m ∧
    (t.names (env.formatEnv m snapshot) m).getLast? = some file) ∧
  (t.names (env.formatEnv m snapshot) m).length = t.segmentCount (env.formatEnv m snapshot) ∧
  of ".." ∉ t.names (env.formatEnv m snapshot) m

variable {dir season file path : List Piece}

theorem destination_movie (hroot : root ≠ []) (huse : (Template.movie dir file).InUse r env m)
    (hfilled : ∀ l ∈ [dir, file], filled (env.formatEnv m snapshot) (source l) =
      .ok (literal (env.formatEnv m snapshot) l)) :
    r.destination env root m snapshot = .ok (some (Path.join (r.layoutRoot root m)
      (if m.isExtras then Path.join (List.intercalate ['/'] (names (env.formatEnv m snapshot) dir))
        (of "extras") else List.intercalate ['/'] (names (env.formatEnv m snapshot) dir))),
      List.intercalate ['/'] (names (env.formatEnv m snapshot) file)) := by
  obtain ⟨htype, hprofile, hdir, hfile⟩ := huse
  have hmovie : r.getMovieDestPath env m snapshot = .ok
      (if m.isExtras then Path.join (List.intercalate ['/'] (names (env.formatEnv m snapshot) dir))
        (of "extras") else List.intercalate ['/'] (names (env.formatEnv m snapshot) dir),
      List.intercalate ['/'] (names (env.formatEnv m snapshot) file)) := by
    simp only [getMovieDestPath, hprofile, hdir, hfile, render_names (hfilled dir (by simp)),
      render_names (hfilled file (by simp)), bind, Except.bind, Except.map, ne_eq, not_true_eq_false,
      if_false]
  simp only [destination, getDestPathByInfo, hmovie, if_pos htype, if_neg hroot, bind, Except.bind,
    Except.map]

theorem lands_movie_iff (hroot : root ≠ []) (huse : (Template.movie dir file).InUse r env m)
    (hfilled : ∀ l ∈ [dir, file], filled (env.formatEnv m snapshot) (source l) =
      .ok (literal (env.formatEnv m snapshot) l)) :
    r.Lands env root m snapshot (.movie dir file) ↔
      (∀ s ∈ (Template.movie dir file).names (env.formatEnv m snapshot) m, Path.IsName s) ∧
        (Template.movie dir file).Roomy (env.formatEnv m snapshot) m := by
  have hdest := destination_movie hroot huse hfilled
  obtain ⟨hlayout, hne⟩ := @parts_layoutRoot r root m hroot
  constructor
  · intro ⟨⟨d, f, hd, hparts, hlast⟩, hcount, hinside⟩
    have hnames := isName_of_parts hparts hinside
    rw [hdest] at hd
    obtain ⟨-, rfl⟩ : _ ∧ _ = f := by simpa using hd
    have hextras : m.isExtras = false := by
      by_contra hx
      have hx : m.isExtras = true := by simpa using hx
      simp [Template.names, Template.segmentCount, Template.formats, hx] at hcount
    simp only [Template.names, hextras] at hlast hnames
    refine ⟨by simpa only [Template.names, hextras] using hnames, hextras, ?_⟩
    simpa using Path.length_eq_one_of_getLast hnames hlast
  · intro ⟨hnames, hextras, hone⟩
    obtain ⟨name, hname⟩ := List.length_eq_one_iff.mp (length_names.trans hone)
    have hlast : (names (env.formatEnv m snapshot) dir ++ [name]).getLast? = some name :=
      List.getLast?_concat
    refine ⟨⟨_, _, hdest, ?_, ?_⟩, ?_, fun hmem => (hnames _ hmem).2.2.1 rfl⟩
    · simp only [Template.names, hextras] at hnames ⊢
      simpa [hlayout] using Path.parts_join_join hne (by simpa using hnames)
    · simp [Template.names, hextras, hname]
    · simp [Template.names, Template.segmentCount, Template.formats, hextras]

theorem destination_profile (hroot : root ≠ []) (huse : (Template.profile path).InUse r env m)
    (hfilled : filled (env.formatEnv m snapshot) (source path) =
      .ok (literal (env.formatEnv m snapshot) path)) :
    r.destination env root m snapshot =
      let rendered := Path.rstripSlash
        ((List.intercalate ['/'] (names (env.formatEnv m snapshot) path)).dropWhile (· = '/'))
      .ok (some (Path.join (r.layoutRoot root m) (Path.dirname rendered)),
        m.withPart (Path.basename rendered)) := by
  obtain ⟨htype, hprofile, hnil⟩ := huse
  have hmovie : r.getMovieDestPath env m snapshot =
      let rendered := Path.rstripSlash
        ((List.intercalate ['/'] (names (env.formatEnv m snapshot) path)).dropWhile (· = '/'))
      .ok (Path.dirname rendered, m.withPart (Path.basename rendered)) := by
    simp only [getMovieDestPath, hprofile, if_pos hnil, render_names hfilled, Except.map]
  simp only [destination, getDestPathByInfo, hmovie, if_pos htype, if_neg hroot, bind, Except.bind,
    Except.map]

theorem lands_profile_iff (hroot : root ≠ []) (huse : (Template.profile path).InUse r env m)
    (hfilled : filled (env.formatEnv m snapshot) (source path) =
      .ok (literal (env.formatEnv m snapshot) path)) :
    r.Lands env root m snapshot (.profile path) ↔
      (∀ s ∈ (Template.profile path).names (env.formatEnv m snapshot) m, Path.IsName s) ∧
        (Template.profile path).Roomy (env.formatEnv m snapshot) m := by
  have hdest := destination_profile hroot huse hfilled
  obtain ⟨hlayout, hne⟩ := @parts_layoutRoot r root m hroot
  constructor
  · intro ⟨⟨d, f, hd, hparts, hlast⟩, hcount, hinside⟩
    exact ⟨isName_of_parts hparts hinside, trivial⟩
  · intro ⟨hnames, _⟩
    have hpath : names (env.formatEnv m snapshot) path ≠ [] := by
      have hne : path ≠ [] := by
        rintro rfl
        exact huse.2.2 rfl
      simp [names, segments, hne]
    obtain ⟨init, last, hsplit⟩ : ∃ init last, names (env.formatEnv m snapshot) path = init ++ [last] :=
      ⟨_, _, (List.dropLast_append_getLast hpath).symm⟩
    have hcount : (init ++ [last]).length = segmentCount (env.formatEnv m snapshot) path := by
      rw [← hsplit, length_names]
    have hlist : (Template.profile path).names (env.formatEnv m snapshot) m =
        init ++ [if last = [] then [] else m.withPart last] := by
      simp [Template.names, hsplit]
    have hlastne : last ≠ [] := by
      intro hnil
      exact (hnames [] (by simp [hlist, hnil])).1 rfl
    rw [if_neg hlastne] at hlist
    rw [hlist] at hnames
    have hslash : '/' ∉ last := by
      intro hmem
      exact (hnames (m.withPart last) (by simp)).2.2.2 (slash_mem_withPart_iff.mpr hmem)
    have hall : ∀ s ∈ init ++ [last], s ≠ [] ∧ '/' ∉ s := by
      intro s hs
      rcases List.mem_append.mp hs with hs | hs
      · have hname := hnames s (by simp [hs])
        exact ⟨hname.1, hname.2.2.2⟩
      · rw [List.mem_singleton.mp hs]
        exact ⟨hlastne, hslash⟩
    obtain ⟨hhead, htail, -⟩ := Path.ends_intercalate (by simp) hall
    have hstrip : Path.rstripSlash ((List.intercalate ['/'] (init ++ [last])).dropWhile (· = '/')) =
        List.intercalate ['/'] (init ++ [last]) := by
      have hdrop : (List.intercalate ['/'] (init ++ [last])).dropWhile (· = '/') =
          List.intercalate ['/'] (init ++ [last]) := by
        cases hcons : List.intercalate ['/'] (init ++ [last]) with
        | nil => rfl
        | cons c s =>
          rw [hcons] at hhead
          rw [List.dropWhile_cons_of_neg (by simpa using hhead)]
      rw [hdrop, Path.rstripSlash_eq_self htail]
    have hinit : ∀ s ∈ init, s ≠ [] ∧ '/' ∉ s := fun s hs => hall s (by simp [hs])
    simp only [hsplit, hstrip, Path.basename_intercalate hslash,
      Path.dirname_intercalate hinit hslash] at hdest
    refine ⟨⟨_, _, hdest, ?_, ?_⟩, ?_, fun hmem => ?_⟩
    · have hjoin := Path.parts_join_join hne hnames
      rw [List.intercalate_singleton, hlayout] at hjoin
      rw [hlist, hjoin]
    · simp [hlist]
    · simp [hlist, Template.segmentCount, Template.formats, ← hcount]
    · rw [hlist] at hmem
      exact (hnames _ hmem).2.2.1 rfl

/-- The part of the path for the season. -/
def seasonNames (fenv : Format.Env) (m : NamingItem) (season : List Piece) : List Text :=
  if m.isExtras then [of "extras"] else names fenv season

/-- The part of the path for the name of the file. -/
def fileNames (fenv : Format.Env) (m : NamingItem) (file : List Piece) : List Text :=
  if m.isExtras = true ∧ extrasSpLabel (orEmpty m.orgString) ≠ [] then
    [m.extrasName (((fenv.fields (of "title")).map FormatValue.str).getD []) (tidy (literal fenv file))]
  else names fenv file

theorem names_tv : (Template.tv dir season file).names fenv m =
    names fenv dir ++ (seasonNames fenv m season ++ fileNames fenv m file) := by
  simp only [Template.names, seasonNames, fileNames]
  by_cases hx : m.isExtras = true
  · by_cases hlabel : extrasSpLabel (orEmpty m.orgString) = []
    · simp [hx, hlabel]
    · simp [hx, hlabel]
  · simp [hx]

/-- The directory of the season and the name of the file are rendered, or made for extra
content. -/
theorem destination_tv (hroot : root ≠ []) (huse : (Template.tv dir season file).InUse r env m)
    (hfilled : ∀ l ∈ [dir, season, file], filled (env.formatEnv m snapshot) (source l) =
      .ok (literal (env.formatEnv m snapshot) l)) :
    r.destination env root m snapshot =
      .ok (some (Path.join (Path.join (r.layoutRoot root m)
        (List.intercalate ['/'] (names (env.formatEnv m snapshot) dir)))
        (List.intercalate ['/'] (seasonNames (env.formatEnv m snapshot) m season))),
        List.intercalate ['/'] (fileNames (env.formatEnv m snapshot) m file)) := by
  obtain ⟨htype, hdir, hseason, hfile⟩ := huse
  have htv : r.getTvDestPath env m snapshot =
      .ok (List.intercalate ['/'] (names (env.formatEnv m snapshot) dir),
        List.intercalate ['/'] (seasonNames (env.formatEnv m snapshot) m season),
        List.intercalate ['/'] (fileNames (env.formatEnv m snapshot) m file)) := by
    simp only [getTvDestPath, hdir, hseason, hfile, render_names (hfilled dir (by simp)),
      render_names (hfilled season (by simp)), render_names (hfilled file (by simp)), bind,
      Except.bind, Except.map, seasonNames, fileNames, tidy_literal]
    by_cases hx : m.isExtras = true
    · by_cases hlabel : extrasSpLabel (orEmpty m.orgString) = []
      · simp [hx, hlabel, NamingItem.extrasName]
      · simp [hx, hlabel]
    · simp [hx]
  simp only [destination, getDestPathByInfo, htv, if_neg htype, if_neg hroot, bind, Except.bind,
    Except.map]

theorem lands_tv_iff (hroot : root ≠ []) (huse : (Template.tv dir season file).InUse r env m)
    (hfilled : ∀ l ∈ [dir, season, file], filled (env.formatEnv m snapshot) (source l) =
      .ok (literal (env.formatEnv m snapshot) l)) :
    r.Lands env root m snapshot (.tv dir season file) ↔
      (∀ s ∈ (Template.tv dir season file).names (env.formatEnv m snapshot) m, Path.IsName s) ∧
        (Template.tv dir season file).Roomy (env.formatEnv m snapshot) m := by
  have hdest := destination_tv hroot huse hfilled
  obtain ⟨hlayout, hne⟩ := @parts_layoutRoot r root m hroot
  have hseason : m.isExtras = true →
      (seasonNames (env.formatEnv m snapshot) m season).length = 1 := by
    intro hx
    simp [seasonNames, hx]
  have hfile : m.isExtras = false ∨ extrasSpLabel (orEmpty m.orgString) = [] →
      (fileNames (env.formatEnv m snapshot) m file).length =
        segmentCount (env.formatEnv m snapshot) file := by
    intro hplain
    have hnot : ¬(m.isExtras = true ∧ extrasSpLabel (orEmpty m.orgString) ≠ []) := by
      rcases hplain with hx | hlabel
      · simp [hx]
      · simp [hlabel]
    rw [fileNames, if_neg hnot, length_names]
  have hlength : (Template.tv dir season file).segmentCount (env.formatEnv m snapshot) =
      segmentCount (env.formatEnv m snapshot) dir + (segmentCount (env.formatEnv m snapshot) season +
        segmentCount (env.formatEnv m snapshot) file) := by
    simp [Template.segmentCount, Template.formats]
  constructor
  · intro ⟨⟨d, f, hd, hparts, hlast⟩, hcount, hinside⟩
    have hnames := isName_of_parts hparts hinside
    rw [hdest] at hd
    obtain ⟨-, rfl⟩ : _ ∧ _ = f := by simpa using hd
    refine ⟨hnames, ?_⟩
    rw [names_tv, ← List.append_assoc] at hnames hlast
    have hone := Path.length_eq_one_of_getLast hnames hlast
    rw [names_tv, hlength, List.length_append, List.length_append, length_names] at hcount
    constructor
    · intro hx
      have hseason := hseason hx
      omega
    · intro hplain
      have hfile := hfile hplain
      omega
  · intro ⟨hnames, hroom, hone⟩
    have hsingle : (fileNames (env.formatEnv m snapshot) m file).length = 1 := by
      by_cases hplain : m.isExtras = false ∨ extrasSpLabel (orEmpty m.orgString) = []
      · rw [hfile hplain, hone hplain]
      · rw [not_or] at hplain
        simp [fileNames, hplain]
    obtain ⟨name, hname⟩ := List.length_eq_one_iff.mp hsingle
    refine ⟨⟨_, _, hdest, ?_, ?_⟩, ?_, fun hmem => (hnames _ hmem).2.2.1 rfl⟩
    · rw [names_tv] at hnames ⊢
      have hfront : ∀ s ∈ names (env.formatEnv m snapshot) dir, Path.IsName s :=
        fun s hs => hnames s (by simp [hs])
      have hback : ∀ s ∈ seasonNames (env.formatEnv m snapshot) m season ++
          fileNames (env.formatEnv m snapshot) m file, Path.IsName s :=
        fun s hs => hnames s (List.mem_append_right _ hs)
      rw [Path.parts_join_join (Path.join_ne_nil hne) hback, Path.parts_join_names hne hfront,
        hlayout, List.append_assoc]
    · simp [names_tv, hname]
    · rw [names_tv, hlength, List.length_append, List.length_append, length_names]
      by_cases hx : m.isExtras = true
      · have hseason := hseason hx
        have hroom := hroom hx
        omega
      · have hx : m.isExtras = false := by simpa using hx
        have hone := hone (.inl hx)
        have hseason : (seasonNames (env.formatEnv m snapshot) m season).length =
            segmentCount (env.formatEnv m snapshot) season := by
          simp [seasonNames, hx]
        omega

/-! ## The destination -/

theorem lands_iff {t : Template} (hroot : root ≠ []) (huse : t.InUse r env m)
    (hfilled : ∀ l ∈ t.formats, filled (env.formatEnv m snapshot) (source l) =
      .ok (literal (env.formatEnv m snapshot) l)) :
    r.Lands env root m snapshot t ↔
      (∀ s ∈ t.names (env.formatEnv m snapshot) m, Path.IsName s) ∧
        t.Roomy (env.formatEnv m snapshot) m := by
  cases t with
  | movie dir file => exact lands_movie_iff hroot huse hfilled
  | profile path => exact lands_profile_iff hroot huse (hfilled path List.mem_cons_self)
  | tv dir season file => exact lands_tv_iff hroot huse hfilled

/-- No plugins, and nothing from the media service. -/
def bareEnv : NamingEnv := ⟨[], fun _ => none, fun _ => none, fun _ _ _ => .error .value⟩

/-- A film, its files under its title. -/
def plainFilm : NamingItem := { type := some .movie, title := some (of "Heat") }

/-- A directory and a name by the title, with the year where it is known. -/
def titleResolver : Resolver :=
  fromSettings (of "{title}{year: ({year})}/{title}") [] false false false

/-- The template of `titleResolver`. -/
def titleTemplate : Template :=
  .movie [.slot (.field (of "title")), .optional (of "year") [.text (of " ("), .field (of "year"),
    .text (of ")")]] [.slot (.field (of "title"))]

/-- The category is checked where it makes a directory of the layout, and not in a format. -/
def categoryResolver : Resolver := fromSettings (of "{category}/{title}") [] false false false

/-- A film whose category is a parent reference. -/
def escapingFilm : NamingItem := { plainFilm with category := some (of "..") }

end Resolver

end WolfNas
