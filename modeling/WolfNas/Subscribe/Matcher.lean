import WolfNas.Subscribe.Rows

/-!
# Matching an identified item against the subscriptions

The matcher walks the subscription list of the item's table and collects every subscription
the item belongs to.  A subscription with a reference is compared by key; the other
comparisons are by name and year.

## Main definitions

* `matchIdentity`, `matchTmdb` — the comparison by reference.
* `MatcherEnv.movieMatches`, `MatcherEnv.tvMatches` — whether one subscription is collected.
* `MatcherEnv.candidates` — the collected subscriptions.
* `MatcherEnv.match` — the first candidate, with its siblings and the item as it is changed.
* `ColumnsNameCandidate` — when the columns of an anchored row lead to the item's own key.
-/

namespace WolfNas

open Text

/-- The exception that parsing a malformed number raises. -/
inductive ValueError
  | valueError
  deriving DecidableEq, Repr

/-- `str(value)`. -/
def IdValue.pyStr : IdValue → Text
  | .none => of "None"
  | .int n => ofInt n
  | .text s => s

/-- `str(value)`, for an optional text. -/
def pyStr : Option Text → Text
  | none => of "None"
  | some s => s

/-! ## Comparison by reference -/

/-- `_match_identity`. -/
def matchIdentity (m : MediaInfo) (s : SubscribeInfo) : Bool :=
  let provider := (orEmpty s.anchorProvider).strip
  let external := (orEmpty s.anchorExternalId).strip
  let targetRef :=
    if s.metadataRef.strip ≠ [] then s.metadataRef.strip
    else if provider ≠ [] ∧ external ≠ [] then provider.joinColon external
    else if s.tmdbId.strip.isDigit then of "tmdb:" ++ s.tmdbId
    else []
  !targetRef.isEmpty &&
    normalizeIdentityKey (.text (mediaIdentityKey m)) == normalizeIdentityKey (.text targetRef)

/-- What the matcher calls besides its own code. -/
structure MatcherEnv where
  /-- The unified target matcher, where the laboratory switch is on. -/
  targetMatcher : Option (MediaInfo → SubscribeInfo → Bool)
  /-- `StringUtils.handler_special_chars`. -/
  specialChars : Text → Text
  /-- The site's attributes and the filter rules accept the item for the subscription. -/
  accepts : MediaInfo → SubscribeInfo → Bool

namespace MatcherEnv

variable (env : MatcherEnv)

/-- `_match_tmdb`. -/
def matchTmdb (m : MediaInfo) (s : SubscribeInfo) : Bool :=
  if s.metadataRef ≠ [] ∨ orEmpty s.anchorProvider ≠ [] then matchIdentity m s
  else match env.targetMatcher with
    | none => m.tmdbId.pyStr == s.tmdbId
    | some matcher => matcher m s

/-- `_fuzzy_name_match`. -/
def fuzzyNameMatch (name : Text) (m : MediaInfo) : Bool :=
  let searchTitle := orEmpty m.revString ++ ' ' :: pyStr m.title ++ ' ' :: pyStr m.year
  let n := (env.specialChars name).upper.strip
  let t := (env.specialChars searchTitle).upper.strip
  name.isEmpty || (!n.isEmpty && decide (n <:+: t))

/-- The subscription takes items of the item's site. -/
def siteServed (m : MediaInfo) (s : SubscribeInfo) : Bool :=
  s.rssSites.isEmpty || s.rssSites.any fun site => m.site == some site

/-- The subscription is compared by reference rather than by name. -/
def byReference (s : SubscribeInfo) : Bool :=
  !s.metadataRef.isEmpty || !(orEmpty s.anchorProvider).isEmpty ||
    (!s.tmdbId.isEmpty && !s.tmdbId.startsWith (of "DB:"))

/-- A film's year lies within one year of the subscription's. -/
def movieYearMatches (m : MediaInfo) (year : Text) : Except ValueError Bool :=
  if year = [] then .ok true
  else match parseInt year with
    | none => .error .valueError
    | some y => .ok ([year, ofInt (y + 1), ofInt (y - 1)].any (pyStr m.year == ·))

/-- The body of the loop over the movie subscriptions. -/
def movieMatches (m : MediaInfo) (s : SubscribeInfo) : Except ValueError Bool :=
  if !siteServed m s then .ok false
  else if !s.fuzzyMatch then
    if byReference s then .ok (env.matchTmdb m s)
    else do
      let yearOk ← movieYearMatches m s.year
      return yearOk && some s.name == m.title
  else .ok ((s.year.isEmpty || s.year == pyStr m.year) && env.fuzzyNameMatch s.name m)

/-- The body of the loop over the TV subscriptions. -/
def tvMatches (m : MediaInfo) (s : SubscribeInfo) : Bool :=
  if !siteServed m s then false
  else if !s.fuzzyMatch then
    (if byReference s then env.matchTmdb m s
     else (s.year.isEmpty || s.year == pyStr m.year) && some s.name == m.title) &&
      (s.season.isEmpty || s.season == m.getSeasonString)
  else
    (s.season.isEmpty || s.season == of "S00" || s.season == m.getSeasonString) &&
      (s.year.isEmpty || s.year == pyStr m.year) && env.fuzzyNameMatch s.name m

end MatcherEnv

/-- The elements a test keeps, where testing an element may fail. -/
def collect {α ε : Type} (test : α → Except ε Bool) : List α → Except ε (List α)
  | [] => .ok []
  | a :: l => do
    let keep ← test a
    let rest ← collect test l
    return if keep then a :: rest else rest

theorem collect_ok_iff {α ε : Type} {test : α → Except ε Bool} {l : List α} :
    (∃ cs, collect test l = .ok cs) ↔ ∀ a ∈ l, ∃ b, test a = .ok b := by
  induction l with
  | nil => simp [collect]
  | cons a l ih =>
    cases ha : test a with
    | error e => simp [collect, ha, bind, Except.bind]
    | ok b =>
      cases hl : collect test l with
      | error e =>
        rw [hl] at ih
        simp [collect, ha, hl, bind, Except.bind] at ih ⊢
        exact ih
      | ok rest =>
        rw [hl] at ih
        simp [collect, ha, hl, bind, Except.bind, pure, Except.pure] at ih ⊢
        exact ih

theorem mem_collect {α ε : Type} {test : α → Except ε Bool} {l cs : List α} {a : α}
    (h : collect test l = .ok cs) : a ∈ cs ↔ a ∈ l ∧ test a = .ok true := by
  induction l generalizing cs with
  | nil =>
    obtain rfl : [] = cs := Except.ok.inj h
    simp
  | cons b l ih =>
    cases hb : test b with
    | error e => simp [collect, hb, bind, Except.bind] at h
    | ok keep =>
      cases hl : collect test l with
      | error e => simp [collect, hb, hl, bind, Except.bind] at h
      | ok rest =>
        simp only [collect, hb, hl, bind, Except.bind, pure, Except.pure] at h
        obtain rfl := Except.ok.inj h
        have := ih hl
        by_cases hab : a = b
        · subst hab
          cases keep <;> simp [hb, this]
        · cases keep <;> simp [hab, this]

namespace MatcherEnv

variable (env : MatcherEnv)

/-- The subscriptions that `match` collects. -/
def candidates (m : MediaInfo) (rssMovies rssTvs : List SubscribeInfo) :
    Except ValueError (List SubscribeInfo) :=
  if m.type = some .movie then collect (env.movieMatches m) rssMovies
  else .ok (rssTvs.filter (env.tvMatches m))

/-- The item takes the declared type of its first candidate, and its year where it has
none. -/
def adopt (m : MediaInfo) (s : SubscribeInfo) : MediaInfo :=
  if m.type = some .movie then m
  else { m with
    type := if s.type ≠ .unknown ∧ ¬(m.type = some .anime ∧ s.type = .tv) then some s.type
      else m.type
    year := if s.year ≠ [] ∧ orEmpty m.year = [] then some s.year else m.year }

/-- The outcome of a successful match. -/
structure Match where
  info : SubscribeInfo
  siblings : List ℕ
  media : MediaInfo
  deriving DecidableEq, Repr

/-- `SubscribeMatcher.match`: the first candidate is the match, the others with the same
filters are its siblings. -/
def «match» (m : MediaInfo) (rssMovies rssTvs : List SubscribeInfo) :
    Except ValueError (Option Match) := do
  match ← env.candidates m rssMovies rssTvs with
  | [] => return none
  | s :: others =>
    let media := adopt m s
    let siblings := others.filter fun c => !c.overEdition && c.filters == s.filters
    return if env.accepts media s then some ⟨s, siblings.map SubscribeInfo.id, media⟩ else none

end MatcherEnv

/-! ## Rows anchored at a reference -/

/-- The normal form of a reference, as a key. -/
def MediaRef.key (ref : MediaRef) : Text :=
  normalizeIdentityKey (.text (ref.provider.joinColon ref.externalId))

/-- The columns of a row anchored at `ref` lead to the key of an item resolved to `ref`.

The row is compared by its explicit reference where it has one, else by its identity, else
by the anchor; the item by its identity where it has one, else by the normal form of `ref`,
which is normalised once more. -/
def ColumnsNameCandidate (row : SubscribeRow) (m : MediaInfo) (ref : MediaRef) : Prop :=
  let explicitRef := (orEmpty row.metadataRef).strip
  let rowIdentity := (orEmpty row.identityId).strip
  let itemIdentity := (orEmpty m.identityId).strip
  if explicitRef ≠ [] then
    if itemIdentity ≠ [] then normalizeIdentityKey (.text explicitRef) = of "id:" ++ itemIdentity
    else normalizeIdentityKey (.text explicitRef) = normalizeIdentityKey (.text ref.key)
  else if rowIdentity ≠ [] then
    if itemIdentity ≠ [] then rowIdentity = itemIdentity
    else normalizeIdentityKey (.text ref.key) = of "id:" ++ rowIdentity
  else
    if itemIdentity ≠ [] then ref.key = of "id:" ++ itemIdentity
    else normalizeIdentityKey (.text ref.key) = ref.key

instance (row : SubscribeRow) (m : MediaInfo) (ref : MediaRef) :
    Decidable (ColumnsNameCandidate row m ref) := by
  unfold ColumnsNameCandidate
  infer_instance

/-- What the reference comparison decides for an anchored row and an item resolved to its
reference. -/
theorem matchIdentity_iff {row : SubscribeRow} {m : MediaInfo} {ref : MediaRef}
    {s : SubscribeInfo} (hs : s.metadataRef = canonicalRef row)
    (href : row.anchorRef = some ref) (hcand : m.getMediaRef = some ref) :
    matchIdentity m s = true ↔ ColumnsNameCandidate row m ref := by
  have hne : (canonicalRef row).strip ≠ [] := canonicalRef_strip_ne_nil href
  have hkey : matchIdentity m s = true ↔
      normalizeIdentityKey (.text (mediaIdentityKey m)) =
        normalizeIdentityKey (.text (canonicalRef row)) := by
    simp [matchIdentity, hs, hne]
  rw [hkey, canonicalRef_of_anchorRef href]
  simp only [ColumnsNameCandidate]
  by_cases hitem : (orEmpty m.identityId).strip = []
  · rw [mediaIdentityKey_of_ref hitem hcand]
    simp only [hitem, ne_eq, not_true_eq_false, if_false]
    split_ifs with hexplicit hrow
    · rfl
    · rw [normalizeIdentityKey_id (trimmed_strip _) hrow]
      rfl
    · exact eq_comm
  · rw [normalizeIdentityKey_mediaIdentityKey_of_identity hitem]
    simp only [ne_eq, hitem, not_false_eq_true, if_true]
    split_ifs with hexplicit hrow
    · exact eq_comm
    · rw [normalizeIdentityKey_id (trimmed_strip _) hrow, List.append_cancel_left_eq]
      exact eq_comm
    · exact eq_comm

/-- The dictionary of a row, in the table that items of the kind of `m` are matched
against. -/
def QueryEnv.infoFor (query : QueryEnv) (m : MediaInfo) (row : SubscribeRow) : SubscribeInfo :=
  if m.type = some .movie then query.movieInfo row else query.tvInfo row

@[simp] theorem QueryEnv.infoFor_metadataRef (query : QueryEnv) (m : MediaInfo)
    (row : SubscribeRow) : (query.infoFor m row).metadataRef = canonicalRef row := by
  rw [QueryEnv.infoFor]
  split_ifs <;> rfl

/-- Whether a film subscription can be tested at all: where it is compared by name, its
year has to be a number. -/
def YearReadable (m : MediaInfo) (s : SubscribeInfo) : Prop :=
  MatcherEnv.siteServed m s = true → s.fuzzyMatch = false → MatcherEnv.byReference s = false →
    s.year = [] ∨ (parseInt s.year).isSome

theorem movieMatches_ok_iff (env : MatcherEnv) {m : MediaInfo} {s : SubscribeInfo} :
    (∃ b, env.movieMatches m s = .ok b) ↔ YearReadable m s := by
  rw [MatcherEnv.movieMatches, YearReadable]
  cases hsite : MatcherEnv.siteServed m s with
  | false => simp
  | true =>
    cases hfuzzy : s.fuzzyMatch with
    | true => simp
    | false =>
      cases href : MatcherEnv.byReference s with
      | true => simp
      | false =>
        by_cases hyear : s.year = []
        · simp [MatcherEnv.movieYearMatches, hyear, bind, Except.bind, pure, Except.pure]
        · cases hint : parseInt s.year with
          | none => simp [MatcherEnv.movieYearMatches, hyear, hint, bind, Except.bind]
          | some y =>
            simp [MatcherEnv.movieYearMatches, hyear, hint, bind, Except.bind, pure, Except.pure]

/-- A subscription with a condensed reference is compared by it, whatever else it
carries. -/
theorem matchTmdb_of_metadataRef (env : MatcherEnv) {m : MediaInfo} {s : SubscribeInfo}
    (h : s.metadataRef ≠ []) : env.matchTmdb m s = matchIdentity m s := by
  rw [MatcherEnv.matchTmdb, if_pos (Or.inl h)]

theorem byReference_of_metadataRef {s : SubscribeInfo} (h : s.metadataRef ≠ []) :
    MatcherEnv.byReference s = true := by
  simp [MatcherEnv.byReference, h]

/-- **When an anchored subscription is found**: for an item resolved to the reference a
subscription row is anchored at, with the site and the season served, the subscription is
among the candidates exactly where the row's columns lead to the item's key, and no other
film subscription stops the search. -/
theorem anchored_mem_candidates_iff (env : MatcherEnv) (query : QueryEnv) (m : MediaInfo)
    (movieRows tvRows : List SubscribeRow) (row : SubscribeRow) (ref : MediaRef)
    (hrow : row ∈ if m.type = some .movie then movieRows else tvRows)
    (href : row.anchorRef = some ref) (hcand : m.getMediaRef = some ref)
    (hfuzzy : (query.infoFor m row).fuzzyMatch = false)
    (hsite : MatcherEnv.siteServed m (query.infoFor m row) = true)
    (hseason : (query.infoFor m row).season = [] ∨
      (query.infoFor m row).season = m.getSeasonString) :
    (∃ cs, env.candidates m (movieRows.map query.movieInfo) (tvRows.map query.tvInfo) = .ok cs ∧
        query.infoFor m row ∈ cs) ↔
      ColumnsNameCandidate row m ref ∧
        (m.type = some .movie → ∀ r ∈ movieRows, YearReadable m (query.movieInfo r)) := by
  have hne : (query.infoFor m row).metadataRef ≠ [] := by
    rw [QueryEnv.infoFor_metadataRef]
    exact fun h => canonicalRef_strip_ne_nil href (by rw [h, strip_nil])
  have hmatch : env.matchTmdb m (query.infoFor m row) = true ↔ ColumnsNameCandidate row m ref := by
    rw [matchTmdb_of_metadataRef env hne]
    exact matchIdentity_iff (query.infoFor_metadataRef m row) href hcand
  have hbyRef := byReference_of_metadataRef hne
  by_cases hmovie : m.type = some .movie
  · have hinfo : query.infoFor m row = query.movieInfo row := if_pos hmovie
    rw [if_pos hmovie] at hrow
    rw [hinfo] at hmatch hbyRef hsite hfuzzy ⊢
    have htest : env.movieMatches m (query.movieInfo row) = .ok true ↔
        ColumnsNameCandidate row m ref := by
      simp [MatcherEnv.movieMatches, hsite, hfuzzy, hbyRef, hmatch]
    have hall : (∃ cs, collect (env.movieMatches m) (movieRows.map query.movieInfo) = .ok cs) ↔
        ∀ r ∈ movieRows, YearReadable m (query.movieInfo r) := by
      simp only [collect_ok_iff, movieMatches_ok_iff, List.forall_mem_map]
    simp only [MatcherEnv.candidates, hmovie, forall_const, ← hall]
    constructor
    · rintro ⟨cs, hcs, hmem⟩
      exact ⟨htest.mp ((mem_collect hcs).mp hmem).2, cs, hcs⟩
    · rintro ⟨hcolumns, cs, hcs⟩
      exact ⟨cs, hcs, (mem_collect hcs).mpr ⟨List.mem_map_of_mem hrow, htest.mpr hcolumns⟩⟩
  · have hinfo : query.infoFor m row = query.tvInfo row := if_neg hmovie
    rw [if_neg hmovie] at hrow
    rw [hinfo] at hmatch hbyRef hsite hfuzzy hseason ⊢
    have htest : env.tvMatches m (query.tvInfo row) = true ↔ ColumnsNameCandidate row m ref := by
      have hserved : ((query.tvInfo row).season.isEmpty ||
          (query.tvInfo row).season == m.getSeasonString) = true := by
        simpa using hseason
      simp [MatcherEnv.tvMatches, hsite, hfuzzy, hbyRef, hserved, hmatch]
    simp only [MatcherEnv.candidates, hmovie, false_implies, and_true, ← htest]
    constructor
    · rintro ⟨cs, hcs, hmem⟩
      obtain rfl := Except.ok.inj hcs
      exact (List.mem_filter.mp hmem).2
    · intro h
      exact ⟨_, rfl, List.mem_filter.mpr ⟨List.mem_map_of_mem hrow, h⟩⟩

/-- A series anchored at a TMDB number, once with and once without an identity. -/
def anchoredRow (identity : Option Text) : SubscribeRow where
  id := 1
  name := of "Show"
  tmdbId := some (of "603")
  anchorProvider := some (of "tmdb")
  anchorExternalId := some (of "603")
  identityId := identity

/-- An item that identification resolved to the same TMDB number. -/
def resolvedItem : MediaInfo where
  type := some .tv
  tmdbId := .int 603

/-- A query service and a matcher that accept every site and every release. -/
def openQuery : QueryEnv := ⟨fun _ => true, fun _ => .tv⟩

@[inherit_doc openQuery]
def openMatcher : MatcherEnv := ⟨none, id, fun _ _ => true⟩

/-- The row without an identity is found. -/
theorem anchored_row_found :
    ∃ cs, openMatcher.candidates resolvedItem [] [openQuery.tvInfo (anchoredRow none)] = .ok cs ∧
      openQuery.tvInfo (anchoredRow none) ∈ cs :=
  (anchored_mem_candidates_iff openMatcher openQuery resolvedItem [] [anchoredRow none]
    (anchoredRow none) ⟨of "tmdb", of "603"⟩ (by decide) (by decide) (by decide) (by decide)
    (by decide) (by decide)).mpr ⟨by decide, fun h => absurd h (by decide)⟩

/-- The same row with an identity is not found, although the item is resolved to the
reference the row is anchored at. -/
theorem identity_row_not_found :
    (anchoredRow (some (of "work-1"))).anchorRef = some ⟨of "tmdb", of "603"⟩ ∧
      resolvedItem.getMediaRef = some ⟨of "tmdb", of "603"⟩ ∧
      (openQuery.tvInfo (anchoredRow (some (of "work-1")))).fuzzyMatch = false ∧
      MatcherEnv.siteServed resolvedItem (openQuery.tvInfo (anchoredRow (some (of "work-1")))) ∧
      (openQuery.tvInfo (anchoredRow (some (of "work-1")))).season = [] ∧
      openMatcher.candidates resolvedItem [] [openQuery.tvInfo (anchoredRow (some (of "work-1")))] =
        .ok [] := by
  decide

end WolfNas
