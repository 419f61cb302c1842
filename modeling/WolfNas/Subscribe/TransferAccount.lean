import WolfNas.Subscribe.TransferEvents

/-!
# On whose account a transfer acts

What is done to a subscription is to be done on account of its own work: of transfers and
downloads of the same kind of media whose identity is that of the subscription.  The ids of
different providers are small numbers that overlap, and so do the numbers of films and shows, so
a handler that compares numbers alone takes one work for another.

## Main definitions

* `SameExternal`, `Subscription.SameIdentity` — a record is of the work of a subscription.
* `OnlyOnAccount` — every subscription is dealt with as if there were no other records.
* `SubscriptionEnv.FitsTv`, `SubscriptionEnv.FitsMovie` — the condition on the records.

## Main results

* `onlyOnAccount_iff` — the condition is exact.
-/

namespace WolfNas

open Text

/-! ## The work of a subscription -/

/-- The provider that stands for no provider. -/
def neutralProvider : Text := of "content_id"

/-- Two external ids are the same: one id, of one provider, or of the neutral one. -/
def SameExternal (a b : Text × Text) : Prop :=
  a.2 ≠ [] ∧ a.2 = b.2 ∧
    ((a.1 ≠ [] ∧ a.1 = b.1) ∨ a.1 = neutralProvider ∨ b.1 = neutralProvider)

instance (a b : Text × Text) : Decidable (SameExternal a b) :=
  inferInstanceAs (Decidable (_ ∧ _ ∧ _))

/-- An anchor, as it stands and as the code reads it. -/
def anchorForms (provider external : Text) : List (Text × Text) :=
  let normalized := normalizedAnchor (some provider) (some external)
  [(provider, external), (provider.strip, external.strip),
    (orEmpty normalized.1, orEmpty normalized.2)]

/-- The external ids of a record. -/
def HistoryRecord.externals (r : HistoryRecord) : List (Text × Text) :=
  (of "tmdb", r.tmdbId) :: anchorForms r.anchorProvider r.anchorExternalId

namespace Subscription

variable (sub : Subscription)

/-- The external ids of a subscription. -/
def externals : List (Text × Text) :=
  (of "tmdb", sub.tmdb) :: sub.pair ::
    sub.providers.flatMap fun provider => anchorForms provider sub.external

/-- A record is of the work of the subscription: it has its identity, or one of its ids. -/
def SameIdentity (r : HistoryRecord) : Prop :=
  (r.identityId ≠ [] ∧ sub.identity = r.identityId) ∨
    ∃ a ∈ sub.externals, ∃ b ∈ r.externals, SameExternal a b

instance (r : HistoryRecord) : Decidable (sub.SameIdentity r) :=
  inferInstanceAs (Decidable (_ ∨ ∃ a ∈ sub.externals, ∃ b ∈ r.externals, SameExternal a b))

end Subscription

/-- The record is of a show. -/
def HistoryRecord.isTv (r : HistoryRecord) : Bool := decide (r.type = .tv ∨ r.type = .anime)

/-- The record is of a film. -/
def HistoryRecord.isMovie (r : HistoryRecord) : Bool := decide (r.type = .movie)

/-- The record accounts for what is done to a TV subscription. -/
def accountsTv (sub : Subscription) (r : HistoryRecord) : Bool :=
  r.isTv && decide (sub.SameIdentity r)

/-- The record accounts for what is done to a movie subscription. -/
def accountsMovie (sub : Subscription) (r : HistoryRecord) : Bool :=
  r.isMovie && decide (sub.SameIdentity r)

/-- Every subscription is dealt with as if the only transfers and downloads were those of the
same kind of media whose identity matches it. -/
structure OnlyOnAccount (env : SubscriptionEnv) (op : TransferOp) (ev : Evidence) : Prop where
  tv : ∀ sub ∈ env.tvs,
    env.onTv op ev sub = env.onTv op (ev.restrict (accountsTv sub)) sub
  movie : ∀ sub ∈ env.movies,
    env.onMovie op ev sub = env.onMovie op (ev.restrict (accountsMovie sub)) sub

/-! ## The condition -/

namespace SubscriptionEnv

variable (env : SubscriptionEnv)

/-- The condition for a TV subscription.  An event about an episode that is taken for it is one
of a show, and where it is taken for it by the title, of its work.  A failed download that is
taken for it is one of a show, and where only the external id is the same, of its work.  In the
round, the downloads of films with its TMDB number make no difference to whether the last one
is too old. -/
def FitsTv (op : TransferOp) (ev : Evidence) (sub : Subscription) : Prop :=
  match op with
  | .movieTransferred => True
  | .episodeTransferred title season episodes total => ∀ r, ev.event = some r →
      env.episodeTarget r title season = some sub.id → env.progressKnown sub.id episodes total →
        r.isTv ∧ (env.tvByAnchor r season = none → env.tvByTmdb r title season = none →
          sub.SameIdentity r)
  | .transferFailed => ∀ h, ev.event = some h → failTold h → failMatchedTv h sub →
      env.failedSeason h sub → ownedBy h sub →
        h.isTv ∧ (¬(h.tmdbId ≠ [] ∧ sub.tmdb = h.tmdbId) →
          ¬(h.identityId ≠ [] ∧ sub.identity = h.identityId) → sub.SameIdentity h)
  | .reconcile cutoff => sub.state = some .completed → env.libraryHas sub = false →
      sub.tmdb ≠ [] →
        stale cutoff (pendingDownloads ev.downloads sub.tmdb [] [] []) =
          stale cutoff (pendingDownloads (ev.downloads.filter HistoryRecord.isTv) sub.tmdb [] [] [])

/-- The condition for a movie subscription.  A film that is taken for it by the external id alone
is its work.  A failed download that is taken for it is one of a film.  In the round, where a
transfer has its external id, one of a film does that is its work, or it waits and is in the
library anyway; and where none has, the downloads of shows make no difference to whether the
last one is too old. -/
def FitsMovie (op : TransferOp) (ev : Evidence) (sub : Subscription) : Prop :=
  match op with
  | .movieTransferred => ∀ r, ev.event = some r → env.movieArrived r → sub.id ≠ 0 →
      movieMatched r sub → ¬(r.tmdbId ≠ [] ∧ sub.tmdb = r.tmdbId) → sub.SameIdentity r
  | .episodeTransferred _ _ _ _ => True
  | .transferFailed => ∀ h, ev.event = some h → failTold h → failMatchedMovie h sub →
      ownedBy h sub → h.isMovie
  | .reconcile cutoff =>
      let waits := sub.state = none ∨ sub.state = some .completed
      (env.transferred ev.transfers sub →
        (∃ t ∈ ev.transfers, t.anchorExternalId = sub.pair.2 ∧ t.isMovie ∧ sub.SameIdentity t) ∨
          (waits ∧ env.libraryHas sub)) ∧
      (env.transferred ev.transfers sub = false → waits → env.libraryHas sub = false →
        stale cutoff (pendingDownloads ev.downloads sub.tmdb sub.identity sub.pair.1 sub.pair.2) =
          stale cutoff (pendingDownloads (ev.downloads.filter HistoryRecord.isMovie) sub.tmdb
            sub.identity sub.pair.1 sub.pair.2))

/-- The condition on the records. -/
def Fits (op : TransferOp) (ev : Evidence) : Prop :=
  (∀ sub ∈ env.tvs, env.FitsTv op ev sub) ∧ ∀ sub ∈ env.movies, env.FitsMovie op ev sub

end SubscriptionEnv

/-! ## Matches by the code -/

section Matches

variable {env : SubscriptionEnv} {sub : Subscription} {r : HistoryRecord}

/-- A TMDB number in both columns. -/
theorem sameIdentity_of_tmdb (hne : r.tmdbId ≠ []) (h : sub.tmdb = r.tmdbId) :
    sub.SameIdentity r := by
  have htmdb : of "tmdb" ≠ [] := by decide
  exact .inr ⟨(of "tmdb", sub.tmdb), List.mem_cons_self, (of "tmdb", r.tmdbId),
    List.mem_cons_self, h ▸ hne, h, .inl ⟨htmdb, rfl⟩⟩

theorem mem_externals_of_provider {provider : Text} {a : Text × Text}
    (hprovider : provider ∈ sub.providers) (ha : a ∈ anchorForms provider sub.external) :
    a ∈ sub.externals :=
  List.mem_cons_of_mem _ (List.mem_cons_of_mem _ (List.mem_flatMap.mpr ⟨provider, hprovider, ha⟩))

theorem mem_externals_of_anchor {a : Text × Text}
    (ha : a ∈ anchorForms r.anchorProvider r.anchorExternalId) : a ∈ r.externals :=
  List.mem_cons_of_mem _ ha

/-- A provider and an id of it in both anchors. -/
theorem sameIdentity_of_anchor {a b : Text × Text} (ha : a ∈ sub.externals) (hb : b ∈ r.externals)
    (hprovider : a.1 ≠ []) (hexternal : a.2 ≠ []) (h : a = b) : sub.SameIdentity r := by
  subst h
  exact .inr ⟨a, ha, a, hb, hexternal, rfl, .inl ⟨hprovider, rfl⟩⟩

/-- The downloads that the round reads are of the work. -/
theorem sameIdentity_of_mem_pendingDownloads {downloads : List HistoryRecord}
    (h : r ∈ pendingDownloads downloads sub.tmdb sub.identity sub.pair.1 sub.pair.2) :
    sub.SameIdentity r := by
  rw [pendingDownloads] at h
  split_ifs at h with htmdb
  · have heq : r.tmdbId = sub.tmdb := by simpa using (List.mem_filter.mp h).2
    exact sameIdentity_of_tmdb (heq ▸ htmdb) heq.symm
  · have hboth := of_decide_eq_true (List.mem_filter.mp h).2
    rcases hboth with ⟨hne, heq⟩ | ⟨hprovider, hexternal, heqp, heqe⟩
    · exact .inl ⟨heq ▸ hne, heq.symm⟩
    · refine sameIdentity_of_anchor (a := sub.pair) (b := (r.anchorProvider, r.anchorExternalId))
        (List.mem_cons_of_mem _ List.mem_cons_self)
        (mem_externals_of_anchor List.mem_cons_self) hprovider hexternal ?_
      rw [heqp, heqe]

/-- What a failed download of a film is matched by. -/
theorem sameIdentity_of_failMatchedMovie (h : failMatchedMovie r sub) : sub.SameIdentity r := by
  rcases Bool.or_eq_true _ _ ▸ h with h | h
  · obtain ⟨hne, heq⟩ := of_decide_eq_true h
    exact sameIdentity_of_tmdb hne heq
  · obtain ⟨hprovider, hexternal, heq, hmem⟩ := of_decide_eq_true h
    refine sameIdentity_of_anchor (a := (r.anchorProvider, sub.external))
      (b := (r.anchorProvider, r.anchorExternalId))
      (mem_externals_of_provider hmem List.mem_cons_self)
      (mem_externals_of_anchor List.mem_cons_self) hprovider (heq ▸ hexternal) ?_
    rw [heq]

/-- A row that is found by its anchor. -/
theorem exists_of_tvByAnchor {season : Text} {id : ℕ} (h : env.tvByAnchor r season = some id) :
    ∃ found ∈ env.tvs, found.id = id ∧ found.SameIdentity r := by
  rw [SubscriptionEnv.tvByAnchor] at h
  split_ifs at h with hraw
  replace h := (Option.filter_eq_some_iff.mp h).1
  simp only [SubscriptionEnv.idByAnchor] at h
  split_ifs at h with hblank
  obtain ⟨hmem, _⟩ := List.max?_eq_some_iff.mp h
  obtain ⟨found, hfound, rfl⟩ := List.mem_map.mp hmem
  obtain ⟨htv, hquery⟩ := List.mem_filter.mp hfound
  obtain ⟨hprovider, hexternal, _⟩ := of_decide_eq_true hquery
  push Not at hblank
  refine ⟨found, htv, rfl, ?_⟩
  refine sameIdentity_of_anchor (a := (orEmpty found.anchorProvider, found.external))
    (b := (r.anchorProvider.strip, r.anchorExternalId.strip))
    (mem_externals_of_provider (by simp [Subscription.providers]) List.mem_cons_self)
    (mem_externals_of_anchor (by simp [anchorForms])) (hprovider ▸ hblank.1)
    (hexternal ▸ hblank.2) ?_
  rw [hprovider, hexternal]

/-- A row that is found by its TMDB number. -/
theorem of_tvByTmdb {title season : Text} {found : Subscription}
    (h : env.tvByTmdb r title season = some found) :
    found ∈ env.tvs ∧ found.SameIdentity r := by
  rw [SubscriptionEnv.tvByTmdb] at h
  split_ifs at h with hblank
  push Not at hblank
  have heq : found.tmdb = r.tmdbId := by
    have hquery := List.find?_some h
    simp only [decide_eq_true_eq] at hquery
    exact hquery.1
  exact ⟨List.mem_of_find?_eq_some h, sameIdentity_of_tmdb hblank.2 heq⟩

end Matches

/-! ## One subscription -/

namespace SubscriptionEnv

variable {env : SubscriptionEnv} {sub : Subscription} {ev : Evidence}

/-- Where a handler goes by the record of its event, the restriction makes no difference exactly
where the record of an event that it acts on is one of those it is restricted to. -/
theorem event_restrict_iff {α : Type} {f : HistoryRecord → Option α} {p : HistoryRecord → Bool}
    (event : Option HistoryRecord) :
    (event.bind f = (event.filter p).bind f) ↔
      ∀ r, event = some r → (f r).isSome → p r = true := by
  cases event with
  | none => simp
  | some r =>
    by_cases hp : p r = true
    · simp [Option.filter, hp]
    · cases hf : f r <;> simp [Option.filter, hp, hf]

/-- The rows of the table are told apart by their ids. -/
theorem eq_of_id_eq {found : Subscription} (hsub : sub ∈ env.tvs) (hfound : found ∈ env.tvs)
    (h : found.id = sub.id) : found = sub :=
  List.inj_on_of_nodup_map env.nodup hfound hsub h

/-- A row that an event about an episode is taken for, but not by its title, is of its work. -/
theorem sameIdentity_iff_of_episodeTarget {r : HistoryRecord} {title season : Text}
    (hsub : sub ∈ env.tvs) (h : env.episodeTarget r title season = some sub.id) :
    sub.SameIdentity r ↔ (env.tvByAnchor r season = none → env.tvByTmdb r title season = none →
      sub.SameIdentity r) := by
  refine ⟨fun hsame _ _ => hsame, fun hfits => ?_⟩
  rw [episodeTarget] at h
  cases hanchor : env.tvByAnchor r season with
  | some id =>
    obtain ⟨found, hfound, hid, hsame⟩ := exists_of_tvByAnchor hanchor
    rw [hanchor, Option.some_or, Option.some.injEq] at h
    exact eq_of_id_eq hsub hfound (hid.trans h) ▸ hsame
  | none =>
    cases htmdb : env.tvByTmdb r title season with
    | some found =>
      obtain ⟨hfound, hsame⟩ := of_tvByTmdb htmdb
      rw [hanchor, htmdb, Option.none_or, Option.some_or, Option.map_some, Option.some.injEq] at h
      exact eq_of_id_eq hsub hfound h ▸ hsame
    | none => exact hfits hanchor htmdb

theorem tv_episodeTransferred_iff {title season : Text} {episodes : List ℕ} {total : ℕ}
    (hsub : sub ∈ env.tvs) :
    env.onTv (.episodeTransferred title season episodes total) ev sub =
        env.onTv (.episodeTransferred title season episodes total)
          (ev.restrict (accountsTv sub)) sub ↔
      env.FitsTv (.episodeTransferred title season episodes total) ev sub := by
  have hbind : ∀ ev : Evidence, env.onTv (.episodeTransferred title season episodes total) ev sub =
      ev.event.bind fun r => if env.episodeTarget r title season = some sub.id ∧
        env.progressKnown sub.id episodes total then some .progress else none := by
    intro ev
    rw [onTv]
    cases ev.event <;> rfl
  rw [hbind, hbind, Evidence.restrict, event_restrict_iff]
  refine forall_congr' fun r => forall_congr' fun _ => ?_
  simp only [Option.isSome_ite, and_imp, accountsTv, Bool.and_eq_true, decide_eq_true_eq]
  refine forall_congr' fun htarget => forall_congr' fun _ => ?_
  exact and_congr_right fun _ => sameIdentity_iff_of_episodeTarget hsub htarget

theorem tv_transferFailed_iff :
    env.onTv .transferFailed ev sub =
        env.onTv .transferFailed (ev.restrict (accountsTv sub)) sub ↔
      env.FitsTv .transferFailed ev sub := by
  have hbind : ∀ ev : Evidence, env.onTv .transferFailed ev sub = ev.event.bind fun h =>
      if failTold h ∧ failMatchedTv h sub ∧ env.failedSeason h sub ∧ ownedBy h sub then
        some (.reopen (env.reopenedLack h sub.id)) else none := by
    intro ev
    rw [onTv]
    cases ev.event <;> rfl
  rw [hbind, hbind, Evidence.restrict, event_restrict_iff]
  refine forall_congr' fun h => forall_congr' fun _ => ?_
  simp only [Option.isSome_ite, and_imp, accountsTv, Bool.and_eq_true, decide_eq_true_eq]
  refine forall_congr' fun _ => forall_congr' fun _ => forall_congr' fun _ =>
    forall_congr' fun _ => and_congr_right fun _ => ?_
  refine ⟨fun hsame _ _ => hsame, fun hfits => ?_⟩
  by_cases htmdb : h.tmdbId ≠ [] ∧ sub.tmdb = h.tmdbId
  · exact sameIdentity_of_tmdb htmdb.1 htmdb.2
  · by_cases hidentity : h.identityId ≠ [] ∧ sub.identity = h.identityId
    · exact .inl hidentity
    · exact hfits htmdb hidentity

/-- Among the downloads with its TMDB number, those that account for a TV subscription are those
of shows. -/
theorem pendingDownloads_accountsTv {downloads : List HistoryRecord} (htmdb : sub.tmdb ≠ []) :
    pendingDownloads (downloads.filter (accountsTv sub)) sub.tmdb [] [] [] =
      pendingDownloads (downloads.filter HistoryRecord.isTv) sub.tmdb [] [] [] := by
  simp only [pendingDownloads, if_pos htmdb, List.filter_filter]
  refine List.filter_congr ?_
  intro r _
  by_cases heq : r.tmdbId = sub.tmdb
  · have hsame : sub.SameIdentity r := sameIdentity_of_tmdb (heq ▸ htmdb) heq.symm
    simp [heq, accountsTv, hsame]
  · simp [heq]

theorem tv_reconcile_iff {cutoff : ℕ} :
    env.onTv (.reconcile cutoff) ev sub =
        env.onTv (.reconcile cutoff) (ev.restrict (accountsTv sub)) sub ↔
      env.FitsTv (.reconcile cutoff) ev sub := by
  simp only [onTv, FitsTv, Evidence.restrict]
  by_cases hstate : sub.state = some .completed
  · by_cases hlibrary : env.libraryHas sub = true
    · simp [hstate, hlibrary]
    · by_cases htmdb : sub.tmdb = []
      · simp [hstate, hlibrary, htmdb]
      · simp only [hstate, hlibrary, htmdb, pendingDownloads_accountsTv htmdb, if_true,
          Bool.false_eq_true, if_false, ne_eq, not_false_eq_true, true_and, forall_true_left]
        generalize stale cutoff (pendingDownloads ev.downloads sub.tmdb [] [] []) = all
        generalize stale cutoff (pendingDownloads (ev.downloads.filter HistoryRecord.isTv)
          sub.tmdb [] [] []) = own
        cases all <;> cases own <;> simp
  · simp [hstate]

theorem tv_iff {op : TransferOp} (hsub : sub ∈ env.tvs) :
    env.onTv op ev sub = env.onTv op (ev.restrict (accountsTv sub)) sub ↔
      env.FitsTv op ev sub := by
  cases op with
  | movieTransferred => simp [onTv, FitsTv]
  | episodeTransferred title season episodes total => exact tv_episodeTransferred_iff hsub
  | transferFailed => exact tv_transferFailed_iff
  | reconcile cutoff => exact tv_reconcile_iff

theorem movie_movieTransferred_iff :
    env.onMovie .movieTransferred ev sub =
        env.onMovie .movieTransferred (ev.restrict (accountsMovie sub)) sub ↔
      env.FitsMovie .movieTransferred ev sub := by
  have hbind : ∀ ev : Evidence, env.onMovie .movieTransferred ev sub = ev.event.bind fun r =>
      if env.movieArrived r ∧ sub.id ≠ 0 ∧ movieMatched r sub then some .finalise else none := by
    intro ev
    rw [onMovie]
    cases ev.event <;> rfl
  rw [hbind, hbind, Evidence.restrict, event_restrict_iff]
  refine forall_congr' fun r => forall_congr' fun _ => ?_
  simp only [Option.isSome_ite, and_imp, accountsMovie, Bool.and_eq_true, decide_eq_true_eq]
  refine forall_congr' fun harrived => forall_congr' fun _ => forall_congr' fun _ => ?_
  have hmovie : r.isMovie = true := by
    simp only [movieArrived, Bool.and_eq_true] at harrived
    exact harrived.1.1
  rw [and_iff_right hmovie]
  refine ⟨fun hsame _ => hsame, fun hfits => ?_⟩
  by_cases htmdb : r.tmdbId ≠ [] ∧ sub.tmdb = r.tmdbId
  · exact sameIdentity_of_tmdb htmdb.1 htmdb.2
  · exact hfits htmdb

theorem movie_transferFailed_iff :
    env.onMovie .transferFailed ev sub =
        env.onMovie .transferFailed (ev.restrict (accountsMovie sub)) sub ↔
      env.FitsMovie .transferFailed ev sub := by
  have hbind : ∀ ev : Evidence, env.onMovie .transferFailed ev sub = ev.event.bind fun h =>
      if failTold h ∧ failMatchedMovie h sub ∧ ownedBy h sub then some (.reopen none)
      else none := by
    intro ev
    rw [onMovie]
    cases ev.event <;> rfl
  rw [hbind, hbind, Evidence.restrict, event_restrict_iff]
  refine forall_congr' fun h => forall_congr' fun _ => ?_
  simp only [Option.isSome_ite, and_imp, accountsMovie, Bool.and_eq_true, decide_eq_true_eq]
  refine forall_congr' fun _ => forall_congr' fun hmatched => forall_congr' fun _ => ?_
  exact and_iff_left (sameIdentity_of_failMatchedMovie hmatched)

/-- By the history, the film of a subscription was transferred where a transfer has its external
id, and the round asks for that id. -/
theorem transferred_iff {transfers : List HistoryRecord} :
    env.transferred transfers sub ↔
      sub.pair.2 ≠ [] ∧ sub.pair.2 ∈ (env.pairs.map Prod.snd).map strip ∧
        ∃ t ∈ transfers, t.anchorExternalId = sub.pair.2 := by
  simp only [transferred, Bool.or_eq_true, decide_eq_true_eq]
  constructor
  · rintro (h | ⟨hne, h⟩)
    · obtain ⟨hanchor, hpair⟩ := List.mem_filter.mp h
      obtain ⟨t, ht, heq⟩ := List.mem_map.mp hanchor
      obtain ⟨hpair, hblank⟩ := List.mem_filter.mp (of_decide_eq_true hpair)
      obtain ⟨pair, hmem, hstrip⟩ := List.mem_map.mp hpair
      refine ⟨(of_decide_eq_true hblank).2, ?_, t, ht, congrArg Prod.snd heq⟩
      rw [List.map_map]
      exact List.mem_map.mpr ⟨pair, hmem, congrArg Prod.snd hstrip⟩
    · obtain ⟨hid, hasked⟩ := List.mem_filter.mp h
      obtain ⟨t, ht, heq⟩ := List.mem_map.mp hid
      exact ⟨hne, (of_decide_eq_true hasked).2, t, ht, heq⟩
  · rintro ⟨hne, hasked, t, ht, heq⟩
    refine .inr ⟨hne, List.mem_filter.mpr ⟨List.mem_map.mpr ⟨t, ht, heq⟩, ?_⟩⟩
    exact decide_eq_true ⟨hne, hasked⟩

/-- A transfer that accounts for it, among those with the external id. -/
theorem transferred_accountsMovie_iff {transfers : List HistoryRecord}
    (h : env.transferred transfers sub) :
    env.transferred (transfers.filter (accountsMovie sub)) sub ↔
      ∃ t ∈ transfers, t.anchorExternalId = sub.pair.2 ∧ t.isMovie ∧ sub.SameIdentity t := by
  obtain ⟨hne, hasked, _⟩ := transferred_iff.mp h
  rw [transferred_iff, and_iff_right hne, and_iff_right hasked]
  constructor
  · rintro ⟨t, ht, heq⟩
    obtain ⟨ht, haccounts⟩ := List.mem_filter.mp ht
    simp only [accountsMovie, Bool.and_eq_true, decide_eq_true_eq] at haccounts
    exact ⟨t, ht, heq, haccounts⟩
  · rintro ⟨t, ht, heq, haccounts⟩
    refine ⟨t, List.mem_filter.mpr ⟨ht, ?_⟩, heq⟩
    simpa [accountsMovie] using haccounts

theorem transferred_of_accountsMovie {transfers : List HistoryRecord}
    (h : env.transferred (transfers.filter (accountsMovie sub)) sub) :
    env.transferred transfers sub := by
  obtain ⟨hne, hasked, t, ht, heq⟩ := transferred_iff.mp h
  exact transferred_iff.mpr ⟨hne, hasked, t, (List.mem_filter.mp ht).1, heq⟩

/-- Among the downloads that the round reads, those that account for a movie subscription are
those of films. -/
theorem pendingDownloads_accountsMovie (downloads : List HistoryRecord) :
    pendingDownloads (downloads.filter (accountsMovie sub)) sub.tmdb sub.identity sub.pair.1
        sub.pair.2 =
      pendingDownloads (downloads.filter HistoryRecord.isMovie) sub.tmdb sub.identity sub.pair.1
        sub.pair.2 := by
  have hcomm : ∀ p : HistoryRecord → Bool,
      pendingDownloads (downloads.filter p) sub.tmdb sub.identity sub.pair.1 sub.pair.2 =
        (pendingDownloads downloads sub.tmdb sub.identity sub.pair.1 sub.pair.2).filter p := by
    intro p
    simp only [pendingDownloads]
    split_ifs <;> exact List.filter_comm _ _ _
  rw [hcomm, hcomm]
  refine List.filter_congr ?_
  intro r hr
  have hsame : sub.SameIdentity r := sameIdentity_of_mem_pendingDownloads hr
  simp [accountsMovie, hsame]

theorem movie_reconcile_iff {cutoff : ℕ} :
    env.onMovie (.reconcile cutoff) ev sub =
        env.onMovie (.reconcile cutoff) (ev.restrict (accountsMovie sub)) sub ↔
      env.FitsMovie (.reconcile cutoff) ev sub := by
  simp only [onMovie, FitsMovie, Evidence.restrict, pendingDownloads_accountsMovie]
  generalize stale cutoff (pendingDownloads ev.downloads sub.tmdb sub.identity sub.pair.1
    sub.pair.2) = all
  generalize stale cutoff (pendingDownloads (ev.downloads.filter HistoryRecord.isMovie) sub.tmdb
    sub.identity sub.pair.1 sub.pair.2) = own
  by_cases htransferred : env.transferred ev.transfers sub = true
  · rw [← transferred_accountsMovie_iff htransferred]
    by_cases hown : env.transferred (ev.transfers.filter (accountsMovie sub)) sub = true
    · simp [htransferred, hown]
    · by_cases hwaits : sub.state = none ∨ sub.state = some .completed
      · cases hlibrary : env.libraryHas sub <;> cases own <;>
          simp [htransferred, hown, hwaits]
      · simp [htransferred, hown, hwaits]
  · have hown : ¬env.transferred (ev.transfers.filter (accountsMovie sub)) sub = true :=
      fun h => htransferred (transferred_of_accountsMovie h)
    by_cases hwaits : sub.state = none ∨ sub.state = some .completed
    · cases hlibrary : env.libraryHas sub <;> cases all <;> cases own <;>
        simp [htransferred, hown, hwaits]
    · simp [htransferred, hown, hwaits]

theorem movie_iff {op : TransferOp} :
    env.onMovie op ev sub = env.onMovie op (ev.restrict (accountsMovie sub)) sub ↔
      env.FitsMovie op ev sub := by
  cases op with
  | movieTransferred => exact movie_movieTransferred_iff
  | episodeTransferred title season episodes total => simp [onMovie, FitsMovie]
  | transferFailed => exact movie_transferFailed_iff
  | reconcile cutoff => exact movie_reconcile_iff

/-- **On whose account a transfer acts**: for all subscriptions and every event or round, what is
done to each subscription is what is done on account of the transfers and downloads of the same
kind of media whose identity matches it, exactly where the records fit. -/
theorem onlyOnAccount_iff (env : SubscriptionEnv) (op : TransferOp) (ev : Evidence) :
    OnlyOnAccount env op ev ↔ env.Fits op ev := by
  constructor
  · intro h
    exact ⟨fun sub hsub => (tv_iff hsub).mp (h.tv sub hsub),
      fun sub hsub => movie_iff.mp (h.movie sub hsub)⟩
  · intro h
    exact ⟨fun sub hsub => (tv_iff hsub).mpr (h.1 sub hsub),
      fun sub hsub => movie_iff.mpr (h.2 sub hsub)⟩

/-- A show and a film, with one number at TMDB. -/
def sharedNumber : SubscriptionEnv where
  movies := [{ id := 1, name := of "Film", tmdbId := some (of "5") }]
  tvs := [{ id := 2, name := of "Show", season := of "S01", tmdbId := some (of "5") }]
  nodup := by decide
  missing := fun _ => none
  mediaExists := fun _ => true
  libraryHas := fun _ => false
  titleParser := fun _ => none
  nameContains := fun _ _ => false
  titlesMatch := fun _ _ => false

/-- The failed download of the film opens the subscription of the show again. -/
theorem film_reopens_show :
    ¬OnlyOnAccount sharedNumber .transferFailed
      { event := some { type := .movie, tmdbId := of "5" } } := by
  intro h
  have hshow := h.tv { id := 2, name := of "Show", season := of "S01", tmdbId := some (of "5") }
    (by decide)
  exact absurd hshow (by decide)

end SubscriptionEnv

end WolfNas
