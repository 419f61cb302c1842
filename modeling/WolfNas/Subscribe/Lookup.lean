import WolfNas.Subscribe.TransferEvents

/-!
# Looking up a subscription

A subscription is looked up by its TMDB number, then by its title and year, and then by titles that
are like its own.  The first two queries are restricted to the user and the content profile that are
asked for.  The third one is not.

## Main definitions

* `SubscriptionLookup` — what is asked for; `SubscriptionLookup.InScope` — the restriction.
* `SubscriptionLookup.fuzzyCandidates`, `SubscriptionLookup.fuzzySubscribeId` — the last query.
* `SubscriptionLookup.getRssMovieId`, `SubscriptionLookup.getRssTvId` — the lookups.

## Main results

* `SubscriptionLookup.scopedHit_inScope` — the first two queries answer within the restriction.
* `SubscriptionLookup.inScope_iff` — when the lookups do.
-/

namespace WolfNas

open Text

/-- What is asked for; what is not given is blank. -/
structure SubscriptionLookup where
  title : Text
  year : Text := []
  season : Text := []
  tmdbid : Text := []
  userId : Option ℕ := none
  contentProfile : Text := []
  deriving DecidableEq, Repr

namespace SubscriptionLookup

variable (env : SubscriptionEnv) (ask : SubscriptionLookup)

/-- The row is one of the user and of the content profile that are asked for. -/
def InScope (sub : Subscription) : Prop :=
  (∀ user ∈ ask.userId, sub.userId = some user) ∧
    profileFilter sub.contentProfile ask.contentProfile = true

instance (sub : Subscription) : Decidable (ask.InScope sub) := inferInstanceAs (Decidable (_ ∧ _))

/-! ## The queries -/

/-- The query by the TMDB number. -/
def byTmdb (rows : List Subscription) : Option Subscription :=
  if ask.tmdbid = [] then none
  else rows.find? fun sub =>
    sub.tmdb = ask.tmdbid ∧ ask.InScope sub ∧ seasonFilter sub.season ask.season

/-- The query by the title and the year. -/
def byTitle (rows : List Subscription) : Option Subscription :=
  rows.find? fun sub =>
    sub.name = ask.title ∧ ask.InScope sub ∧ seasonFilter sub.season ask.season ∧
      (ask.year = [] ∨ sub.year = ask.year)

/-- The title without what follows its first bracket. -/
def baseTitle : Text := (beforeBracket ask.title).strip

/-- The rows that `_fuzzy_subscribe_id` goes through: those whose name has the title in it, then
those with a like title and the year, then those with a like title. -/
def fuzzyCandidates (rows : List Subscription) : List Subscription :=
  let rows := rows.filter fun sub => ask.season = [] ∨ seasonFilter sub.season ask.season
  (rows.filter fun sub => env.nameContains sub.name ask.baseTitle) ++
    (rows.filter fun sub =>
      (ask.year = [] ∨ sub.year = ask.year) ∧ env.titlesMatch sub.name ask.baseTitle) ++
    rows.filter fun sub => env.titlesMatch sub.name ask.baseTitle

/-- `_fuzzy_subscribe_id`. -/
def fuzzySubscribeId (rows : List Subscription) : Option Subscription :=
  if ask.baseTitle = [] then none else (ask.fuzzyCandidates env rows).head?

/-- The first two queries. -/
def scopedHit (rows : List Subscription) : Option Subscription :=
  (ask.byTmdb rows).or (ask.byTitle rows)

/-- The three queries, in their order. -/
def cascade (rows : List Subscription) : Option Subscription :=
  if ask.title = [] then none else (ask.scopedHit rows).or (ask.fuzzySubscribeId env rows)

/-- `get_rss_movie_id`: the row whose id is returned.  Films have no season. -/
def getRssMovieId : Option Subscription := { ask with season := [] }.cascade env env.movies

/-- `get_rss_tv_id`: the row whose id is returned. -/
def getRssTvId : Option Subscription := ask.cascade env env.tvs

/-! ## The restriction -/

variable {env ask} {rows : List Subscription} {sub : Subscription}

/-- **The first two queries** answer within the restriction. -/
theorem scopedHit_inScope (h : ask.scopedHit rows = some sub) : ask.InScope sub := by
  rw [scopedHit, Option.or_eq_some_iff] at h
  rcases h with htmdb | ⟨_, htitle⟩
  · rw [byTmdb] at htmdb
    split_ifs at htmdb
    have hfound := List.find?_some htmdb
    rw [decide_eq_true_eq] at hfound
    exact hfound.2.1
  · rw [byTitle] at htitle
    have hfound := List.find?_some htitle
    rw [decide_eq_true_eq] at hfound
    exact hfound.2.1

variable (env ask) in
/-- The condition: something within the restriction is found by the first two queries, or the first
row that the last one comes to is within the restriction. -/
def LeadsInside (rows : List Subscription) : Prop :=
  ask.title = [] ∨ ask.scopedHit rows ≠ none ∨ ask.baseTitle = [] ∨
    ∀ sub ∈ (ask.fuzzyCandidates env rows).head?, ask.InScope sub

/-- When the three queries answer within the restriction. -/
theorem cascade_inScope_iff :
    (∀ sub, ask.cascade env rows = some sub → ask.InScope sub) ↔ ask.LeadsInside env rows := by
  unfold cascade LeadsInside
  by_cases htitle : ask.title = []
  · simp [htitle]
  · rw [if_neg htitle, or_iff_right htitle]
    cases hhit : ask.scopedHit rows with
    | some sub =>
      simp only [Option.some_or, Option.some.injEq, forall_eq', ne_eq, reduceCtorEq,
        not_false_eq_true, true_or, iff_true]
      exact scopedHit_inScope hhit
    | none =>
      unfold fuzzySubscribeId
      by_cases hbase : ask.baseTitle = []
      · simp [hbase]
      · simp [hbase]

variable (env ask) in
/-- **The lookups answer within the restriction**, exactly if the first two queries find something
or the first row that the last one comes to is within it. -/
theorem inScope_iff :
    ((∀ sub, ask.getRssMovieId env = some sub → ask.InScope sub) ↔
        { ask with season := [] }.LeadsInside env env.movies) ∧
      ((∀ sub, ask.getRssTvId env = some sub → ask.InScope sub) ↔ ask.LeadsInside env env.tvs) := by
  constructor
  · exact cascade_inScope_iff
  · exact cascade_inScope_iff

/-- A film of one user. -/
def sequelOf (user : ℕ) : Subscription where
  id := 1
  name := of "Show Part 2"
  userId := some user

/-- A store with that film. -/
def sequelEnv : SubscriptionEnv where
  movies := [sequelOf 1]
  tvs := []
  nodup := List.nodup_nil
  missing _ := none
  mediaExists _ := false
  libraryHas _ := false
  titleParser _ := none
  nameContains name title := title <:+: name
  titlesMatch _ _ := false

/-- Another user asks for a film, and is given that of the first one. -/
theorem not_inScope_sequel :
    ¬∀ (env : SubscriptionEnv) (ask : SubscriptionLookup),
      (∀ sub, ask.getRssMovieId env = some sub → ask.InScope sub) ∧
        ∀ sub, ask.getRssTvId env = some sub → ask.InScope sub := by
  intro h
  have hscope := (h sequelEnv { title := of "Show", userId := some 2 }).1 (sequelOf 1)
    (by decide +kernel)
  revert hscope
  decide +kernel

end SubscriptionLookup

end WolfNas
