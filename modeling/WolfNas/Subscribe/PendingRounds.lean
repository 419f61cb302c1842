import WolfNas.Subscribe.TransferEvents

/-!
# Subscriptions that wait for a transfer

A round looks after the subscriptions whose transfer has been missed.  Those that are in the library
are finalised, and those whose downloads are too old are opened again.  The downloads of a film are
found by its TMDB number, or else by its identity and its anchor; those of a show by its TMDB number
only.

## Main definitions

* `PendingRound` — what a round reads; `PendingRound.tvAction`, `PendingRound.movieAction` — what it
  does to each subscription; `PendingRound.tvsAfter`, `PendingRound.moviesAfter` — the tables it
  leaves.
* `PendingRound.Overdue` — the last download of a subscription is older than the timeout.
* `PendingRound.Settled` — what a round is to do; `PendingRound.Reached` — the condition.

## Main results

* `stale_iff` — when the last download is too old.
* `PendingRound.settled_iff` — when a round does what it is to do.
-/

namespace WolfNas

open Text

/-! ## The round -/

/-- What `reconcile_pending_transfers` reads. -/
structure PendingRound where
  env : SubscriptionEnv
  downloads : List HistoryRecord := []
  transfers : List HistoryRecord := []
  /-- There is a repository of downloads, and its query for the subscription does not raise. -/
  answered : Subscription → Bool := fun _ => true
  /-- The time, in seconds. -/
  now : ℕ
  timeoutMinutes : ℤ := 180

/-- What is left of a row. -/
def Subscription.acted (sub : Subscription) : Option TransferAction → Option Subscription
  | some .finalise => none
  | some (.reopen _) => some { sub with state := some .running }
  | some .progress | none => some sub

/-- The download is one of the subscription, by its TMDB number, its identity or its anchor. -/
def Subscription.OwnDownload (sub : Subscription) (r : HistoryRecord) : Prop :=
  (sub.tmdb ≠ [] ∧ r.tmdbId = sub.tmdb) ∨ (sub.identity ≠ [] ∧ r.identityId = sub.identity) ∨
    (sub.pair.1 ≠ [] ∧ sub.pair.2 ≠ [] ∧ r.anchorProvider = sub.pair.1 ∧
      r.anchorExternalId = sub.pair.2)

instance (sub : Subscription) : DecidablePred sub.OwnDownload := fun _ =>
  inferInstanceAs (Decidable (_ ∨ _ ∨ _))

namespace PendingRound

variable (round : PendingRound) (sub : Subscription)

/-- `cutoff`. -/
def cutoff : ℕ := round.now - 60 * (max round.timeoutMinutes 1).toNat

/-- The records that the round goes by.  A query that is not answered is taken for one that finds
nothing. -/
def evidence : Evidence where
  downloads := if round.answered sub then round.downloads else []
  transfers := round.transfers

/-- What the round does to a show. -/
def tvAction : Option TransferAction :=
  round.env.onTv (.reconcile round.cutoff) (round.evidence sub) sub

/-- What the round does to a film. -/
def movieAction : Option TransferAction :=
  round.env.onMovie (.reconcile round.cutoff) (round.evidence sub) sub

/-- The TV table after the round. -/
def tvsAfter : List Subscription :=
  round.env.tvs.filterMap fun sub => sub.acted (round.tvAction sub)

/-- The movie table after the round. -/
def moviesAfter : List Subscription :=
  round.env.movies.filterMap fun sub => sub.acted (round.movieAction sub)

/-- The subscription waits for its transfer. -/
def Waiting : Prop := sub.state = some .completed

/-- The last of its downloads is older than the timeout. -/
def Overdue : Prop :=
  stale round.cutoff (round.downloads.filter fun r => sub.OwnDownload r) = true

/-- A film is in the library, or the history has its transfer. -/
def HasMovie : Prop :=
  round.env.transferred round.transfers sub = true ∨ round.env.libraryHas sub = true

/-- Those in the library are finalised, those that are overdue opened again, and none of these waits
any longer. -/
structure Settled : Prop where
  tv : ∀ sub ∈ round.env.tvs, Waiting sub →
    (round.env.libraryHas sub → round.tvAction sub = some .finalise) ∧
      (¬round.env.libraryHas sub → round.Overdue sub → round.tvAction sub = some (.reopen none))
  movie : ∀ sub ∈ round.env.movies, Waiting sub →
    (round.HasMovie sub → round.movieAction sub = some .finalise) ∧
      (¬round.HasMovie sub → round.Overdue sub → round.movieAction sub = some (.reopen none))
  tvsAfter : ∀ sub ∈ round.tvsAfter, Waiting sub → ¬round.Overdue sub
  moviesAfter : ∀ sub ∈ round.moviesAfter, Waiting sub → ¬round.Overdue sub

/-- A download with a date has the TMDB number of the subscription. -/
def TmdbDownload : Prop := ∃ r ∈ round.downloads, r.tmdbId = sub.tmdb ∧ r.date ≠ none

/-- The condition: the downloads of those that are overdue can be read, and one of them has the TMDB
number of the subscription.  A film may do without a number. -/
structure Reached : Prop where
  tv : ∀ sub ∈ round.env.tvs, Waiting sub → ¬round.env.libraryHas sub → round.Overdue sub →
    round.answered sub ∧ sub.tmdb ≠ [] ∧ round.TmdbDownload sub
  movie : ∀ sub ∈ round.env.movies, Waiting sub → ¬round.HasMovie sub → round.Overdue sub →
    round.answered sub ∧ (sub.tmdb = [] ∨ round.TmdbDownload sub)

end PendingRound

/-! ## The last download -/

/-- **The last download is too old** if there is a date, and all dates are too old. -/
theorem stale_iff {cutoff : ℕ} {rows : List HistoryRecord} :
    stale cutoff rows ↔
      (∃ r ∈ rows, r.date ≠ none) ∧ ∀ r ∈ rows, ∀ date ∈ r.date, date < cutoff := by
  have hdates : ∀ {date}, date ∈ rows.filterMap HistoryRecord.date ↔
      ∃ r ∈ rows, r.date = some date := List.mem_filterMap
  unfold stale latestDate
  cases hmax : (rows.filterMap HistoryRecord.date).max? with
  | none =>
    have hnil : rows.filterMap HistoryRecord.date = [] := List.max?_eq_none_iff.mp hmax
    refine iff_of_false Bool.false_ne_true ?_
    rintro ⟨⟨r, hr, hdate⟩, -⟩
    obtain ⟨date, hdate⟩ := Option.ne_none_iff_exists'.mp hdate
    have hmem := hdates.mpr ⟨r, hr, hdate⟩
    rw [hnil] at hmem
    cases hmem
  | some last =>
    obtain ⟨hlast, hle⟩ := List.max?_eq_some_iff.mp hmax
    obtain ⟨r, hr, hdate⟩ := hdates.mp hlast
    rw [Option.any_some, decide_eq_true_eq]
    constructor
    · intro hold
      refine ⟨⟨r, hr, by simp [hdate]⟩, fun r' hr' date hdate' => ?_⟩
      exact (hle date (hdates.mpr ⟨r', hr', hdate'⟩)).trans_lt hold
    · rintro ⟨-, hold⟩
      exact hold r hr last hdate

namespace PendingRound

variable {round : PendingRound} {sub : Subscription}

/-- Some of the downloads of an overdue subscription are too old as well if one has a date. -/
theorem Overdue.stale_iff_exists (h : round.Overdue sub) {rows : List HistoryRecord}
    (hrows : ∀ r ∈ rows, r ∈ round.downloads ∧ sub.OwnDownload r) :
    stale round.cutoff rows ↔ ∃ r ∈ rows, r.date ≠ none := by
  rw [stale_iff]
  refine and_iff_left fun r hr date hdate => ?_
  have hold := (stale_iff.mp h).2 r
  rw [List.mem_filter, decide_eq_true_eq] at hold
  exact hold (hrows r hr) date hdate

theorem not_stale_nil {cutoff : ℕ} : ¬stale cutoff [] := by
  rw [stale_iff]
  rintro ⟨⟨r, hr, -⟩, -⟩
  cases hr

/-- A query by the TMDB number tells that a subscription is overdue if it finds a date. -/
theorem Overdue.stale_byTmdb_iff (h : round.Overdue sub) (htmdb : sub.tmdb ≠ [])
    (identity provider external : Text) :
    stale round.cutoff
        (pendingDownloads (round.evidence sub).downloads sub.tmdb identity provider external) ↔
      round.answered sub ∧ round.TmdbDownload sub := by
  rw [pendingDownloads, if_pos htmdb, evidence]
  by_cases hanswered : round.answered sub
  · simp only [hanswered, if_true, true_and]
    rw [h.stale_iff_exists]
    · simp [TmdbDownload, and_assoc]
    · intro r hr
      rw [List.mem_filter, decide_eq_true_eq] at hr
      exact ⟨hr.1, .inl ⟨htmdb, hr.2⟩⟩
  · simp only [hanswered, if_false, false_and, iff_false, Bool.false_eq_true]
    exact not_stale_nil

/-- A query by the identity and the anchor does so if it is answered. -/
theorem Overdue.stale_byIdentity_iff (h : round.Overdue sub) (htmdb : sub.tmdb = []) :
    stale round.cutoff (pendingDownloads (round.evidence sub).downloads sub.tmdb sub.identity
        sub.pair.1 sub.pair.2) ↔
      round.answered sub := by
  rw [pendingDownloads, if_neg (not_not.mpr htmdb), evidence]
  by_cases hanswered : round.answered sub
  · have hown : (round.downloads.filter fun r => (sub.identity ≠ [] ∧ r.identityId = sub.identity) ∨
        (sub.pair.1 ≠ [] ∧ sub.pair.2 ≠ [] ∧ r.anchorProvider = sub.pair.1 ∧
          r.anchorExternalId = sub.pair.2)) =
        round.downloads.filter fun r => sub.OwnDownload r := by
      simp [Subscription.OwnDownload, htmdb]
    simp only [hanswered, if_true, iff_true]
    rw [hown]
    exact h
  · simp only [hanswered, if_false, iff_false, Bool.false_eq_true]
    exact not_stale_nil

/-! ## What a round does -/

theorem tvAction_of_library (hwaiting : Waiting sub) (h : round.env.libraryHas sub) :
    round.tvAction sub = some .finalise := by
  have hstate : sub.state = some .completed := hwaiting
  simp [tvAction, SubscriptionEnv.onTv, hstate, h]

/-- A show that is overdue is opened again if the query by its TMDB number tells. -/
theorem tvAction_of_overdue (hwaiting : Waiting sub) (hlibrary : ¬round.env.libraryHas sub)
    (h : round.Overdue sub) :
    round.tvAction sub = some (.reopen none) ↔
      round.answered sub ∧ sub.tmdb ≠ [] ∧ round.TmdbDownload sub := by
  have hstate : sub.state = some .completed := hwaiting
  simp only [tvAction, SubscriptionEnv.onTv, hstate, hlibrary, if_true, if_false,
    Bool.false_eq_true]
  rw [Option.ite_none_right_eq_some, and_iff_left rfl]
  by_cases htmdb : sub.tmdb = []
  · simp [htmdb]
  · rw [h.stale_byTmdb_iff htmdb]
    simp [htmdb]

theorem movieAction_of_has (hwaiting : Waiting sub) (h : round.HasMovie sub) :
    round.movieAction sub = some .finalise := by
  have hstate : sub.state = some .completed := hwaiting
  have hevidence : (round.evidence sub).transfers = round.transfers := rfl
  simp only [movieAction, SubscriptionEnv.onMovie, hstate, hevidence]
  rcases h with htransferred | hlibrary
  · simp [htransferred]
  · simp [hlibrary]

/-- A film that is overdue is opened again if a query tells: the one by its TMDB number, where it
has one. -/
theorem movieAction_of_overdue (hwaiting : Waiting sub) (hlibrary : ¬round.HasMovie sub)
    (h : round.Overdue sub) :
    round.movieAction sub = some (.reopen none) ↔
      round.answered sub ∧ (sub.tmdb = [] ∨ round.TmdbDownload sub) := by
  have hstate : sub.state = some .completed := hwaiting
  have hevidence : (round.evidence sub).transfers = round.transfers := rfl
  obtain ⟨htransferred, hmissing⟩ := not_or.mp hlibrary
  simp only [movieAction, SubscriptionEnv.onMovie, hstate, hevidence, htransferred, hmissing,
    or_true, if_true, if_false, Bool.false_eq_true]
  rw [Option.ite_none_right_eq_some, and_iff_left rfl]
  by_cases htmdb : sub.tmdb = []
  · rw [h.stale_byIdentity_iff htmdb]
    simp [htmdb]
  · rw [h.stale_byTmdb_iff htmdb]
    simp [htmdb]

/-- Those that still wait are left alone. -/
theorem eq_of_acted {left : Subscription} {action : Option TransferAction}
    (h : sub.acted action = some left) (hwaiting : Waiting left) :
    left = sub ∧ action ≠ some .finalise ∧ ∀ lack, action ≠ some (.reopen lack) := by
  cases action with
  | none => simpa [Subscription.acted, eq_comm] using h
  | some action =>
    cases action with
    | finalise => simp [Subscription.acted] at h
    | reopen lack =>
      have hleft : { sub with state := some .running } = left := Option.some.inj h
      subst hleft
      cases hwaiting
    | progress => simpa [Subscription.acted, eq_comm] using h

variable (round) in
/-- **A round does what it is to do** exactly if the downloads of those that are overdue can be
read, and, for those with a TMDB number and for all shows, one of them has that number. -/
theorem settled_iff : round.Settled ↔ round.Reached := by
  constructor
  · intro hsettled
    constructor
    · intro sub hsub hwaiting hlibrary hoverdue
      rw [← tvAction_of_overdue hwaiting hlibrary hoverdue]
      exact (hsettled.tv sub hsub hwaiting).2 hlibrary hoverdue
    · intro sub hsub hwaiting hlibrary hoverdue
      rw [← movieAction_of_overdue hwaiting hlibrary hoverdue]
      exact (hsettled.movie sub hsub hwaiting).2 hlibrary hoverdue
  · intro hreached
    have htv : ∀ sub ∈ round.env.tvs, Waiting sub →
        (round.env.libraryHas sub → round.tvAction sub = some .finalise) ∧
          (¬round.env.libraryHas sub → round.Overdue sub →
            round.tvAction sub = some (.reopen none)) := by
      intro sub hsub hwaiting
      refine ⟨tvAction_of_library hwaiting, fun hlibrary hoverdue => ?_⟩
      rw [tvAction_of_overdue hwaiting hlibrary hoverdue]
      exact hreached.tv sub hsub hwaiting hlibrary hoverdue
    have hmovie : ∀ sub ∈ round.env.movies, Waiting sub →
        (round.HasMovie sub → round.movieAction sub = some .finalise) ∧
          (¬round.HasMovie sub → round.Overdue sub →
            round.movieAction sub = some (.reopen none)) := by
      intro sub hsub hwaiting
      refine ⟨movieAction_of_has hwaiting, fun hlibrary hoverdue => ?_⟩
      rw [movieAction_of_overdue hwaiting hlibrary hoverdue]
      exact hreached.movie sub hsub hwaiting hlibrary hoverdue
    refine ⟨htv, hmovie, ?_, ?_⟩
    · intro left hleft hwaiting hoverdue
      obtain ⟨sub, hsub, hacted⟩ := List.mem_filterMap.mp hleft
      obtain ⟨rfl, hnot, hnot'⟩ := eq_of_acted hacted hwaiting
      by_cases hlibrary : round.env.libraryHas left
      · exact hnot ((htv left hsub hwaiting).1 hlibrary)
      · exact hnot' none ((htv left hsub hwaiting).2 hlibrary hoverdue)
    · intro left hleft hwaiting hoverdue
      obtain ⟨sub, hsub, hacted⟩ := List.mem_filterMap.mp hleft
      obtain ⟨rfl, hnot, hnot'⟩ := eq_of_acted hacted hwaiting
      by_cases hlibrary : round.HasMovie left
      · exact hnot ((hmovie left hsub hwaiting).1 hlibrary)
      · exact hnot' none ((hmovie left hsub hwaiting).2 hlibrary hoverdue)

/-- A show that is known by its anchor. -/
def anchoredShow : Subscription where
  id := 1
  name := of "Show"
  anchorProvider := some (of "bangumi")
  anchorExternalId := some (of "42")
  state := some .completed

/-- A day after its only download. -/
def dayAfter : PendingRound where
  env := {
    movies := []
    tvs := [anchoredShow]
    nodup := List.nodup_singleton _
    missing := fun _ => none
    mediaExists := fun _ => false
    libraryHas := fun _ => false
    titleParser := fun _ => none
    nameContains := fun _ _ => false
    titlesMatch := fun _ _ => false }
  downloads := [{
    type := .tv
    anchorProvider := of "bangumi"
    anchorExternalId := of "42"
    date := some 0 }]
  now := 86400

/-- It still waits. -/
theorem not_settled_dayAfter : ¬∀ round : PendingRound, round.Settled := by
  intro h
  have hreopened := ((h dayAfter).tv anchoredShow List.mem_cons_self rfl).2 (by decide +kernel)
    (by unfold Overdue; decide +kernel)
  revert hreopened
  decide +kernel

end PendingRound

end WolfNas
