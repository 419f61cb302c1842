import WolfNas.Lib.Run
import WolfNas.Media.Ref
import WolfNas.Subscribe.TvTable

/-!
# The state of a subscription and the time of its last change

The watchdog looks at the time since when a subscription has been searched for, and a
subscription that failed is tried again at a time of its own.  Whatever changes the state is to put
down the time, and to forget the retry unless the new state is the failure.  The operations do so by
statements of their own.

## Main definitions

* `StateRow`, `StateTables` — the tables.
* `updateWhere` — one `UPDATE` statement.
* `StateOp`, `StateOp.run` — the operations.
* `StateOp.addressed`, `StateOp.wanted`, `StateOp.Right` — what an operation is to do.
* `StateOp.Meets` — the condition on the tables.

## Main results

* `StateOp.right_iff_meets` — when an operation does what it is to do.
* `StateOp.right_along_iff` — the same along every sequence of operations.
-/

namespace WolfNas

open Text

/-- `SubscribeState.value`. -/
def SubscribeState.value : SubscribeState → Text
  | pending => of "D"
  | searching => of "S"
  | running => of "R"
  | completed => of "C"
  | error => of "E"
  | cancelled => of "N"

/-! ## The tables -/

/-- A row of `SUBSCRIBE_MOVIES` or of `SUBSCRIBE_TVS`, as far as the operations read and write
it. -/
structure StateRow where
  id : ℕ
  userId : Option ℕ := none
  name : Text
  year : Option Text := none
  season : Option Text := none
  state : Option Text := none
  stateUpdatedAt : Option Text := none
  retryCount : ℕ := 0
  nextRetryAt : Option Text := none
  deriving DecidableEq, Repr

/-- Both tables. -/
structure StateTables where
  movies : List StateRow
  tvs : List StateRow
  deriving DecidableEq

/-- `UPDATE ... WHERE`. -/
def updateWhere (p : StateRow → Bool) (f : StateRow → StateRow) (rows : List StateRow) :
    List StateRow :=
  rows.map fun row => if p row then f row else row

namespace StateRow

variable (row : StateRow)

/-- `update_values` of a change of state. -/
def change (state now : Text) : StateRow :=
  let row := { row with state := some state, stateUpdatedAt := some now }
  if state ≠ SubscribeState.error.value then { row with retryCount := 0, nextRetryAt := none }
  else row

/-- No retry is planned. -/
def Idle : Prop := row.retryCount = 0 ∧ row.nextRetryAt = none

instance : Decidable row.Idle := inferInstanceAs (Decidable (_ ∧ _))

/-- The row is searched for. -/
def isSearching : Bool := row.state = some SubscribeState.searching.value

end StateRow

/-! ## The operations -/

/-- The columns that `update` is given besides the state; those that are none are left alone. -/
structure GivenFields where
  name : Option Text := none
  year : Option Text := none
  season : Option Text := none

/-- An operation that changes the state of subscriptions.  A title that is none is blank, a year is
compared as `str(year)`, and an id that is none is 0. -/
inductive StateOp
  /-- `reset_rss_state`. -/
  | reset
  /-- `update_rss_movie` and `update_rss_tv`, with a state. -/
  | update (isMovie : Bool) (rssid : ℕ) (user : Option UserContext) (fields : GivenFields)
      (state : Text)
  /-- `update_rss_movie_state`. -/
  | movieState (title year : Text) (rssid : ℕ) (state : Text)
  /-- `update_rss_tv_state`. -/
  | tvState (title year : Text) (season : Option Text) (rssid : ℕ) (state : Text)
  /-- `reset_stale_searching`. -/
  | resetStale (cutoff : Text)
  /-- `update_rss_state` of the service. -/
  | service (isMovie : Bool) (rssid : ℕ) (state : Text)

/-- The columns are written; only a series has a season, and it is put into its normal form. -/
def GivenFields.write (fields : GivenFields) (isMovie : Bool) (row : StateRow) : StateRow :=
  { row with
    name := fields.name.getD row.name
    year := fields.year.or row.year
    season := if isMovie then row.season else (fields.season.map normalizeTvSeason).or row.season }

/-- `season_filter` on the column: a season that is null is in no list. -/
def StateRow.inSeason (season : Option Text) (row : StateRow) : Bool :=
  seasonVariants (orEmpty season) = [] || row.season.any (· ∈ seasonVariants (orEmpty season))

/-- The row of a title and a year. -/
def StateRow.isTitle (title year : Text) (row : StateRow) : Bool :=
  row.name = title ∧ row.year = some year

/-- The row has an id, and the user may write it. -/
def StateRow.isOwned (rssid : ℕ) (user : Option UserContext) (row : StateRow) : Bool :=
  row.id = rssid ∧ TvUpdate.owned user row.userId

/-- The state of a row after the branches of `update_rss_state`: a state that has no branch is not
set. -/
def serviceState (state : Text) (row : StateRow) : Text :=
  if state ∈ [SubscribeState.running, .completed, .cancelled, .pending, .error].map
      SubscribeState.value then state
  else orEmpty row.state

namespace StateOp

variable (now : Text)

/-- `update` on the rows of one table. -/
def updateRows (isMovie : Bool) (rssid : ℕ) (user : Option UserContext) (fields : GivenFields)
    (state : Text) (rows : List StateRow) : List StateRow :=
  if rssid = 0 then rows
  else updateWhere (StateRow.isOwned rssid user)
    (fun row => { fields.write isMovie row with state := some state, stateUpdatedAt := some now })
    rows

/-- `update_rss_state` on the rows of one table. -/
def serviceRows (isMovie : Bool) (rssid : ℕ) (state : Text) (rows : List StateRow) :
    List StateRow :=
  match rows.find? fun row => rssid = 0 ∨ row.id = rssid with
  | none => rows
  | some entity => updateRows now isMovie rssid none {} (serviceState state entity) rows

/-- `update_rss_tv_state` by title: a statement for every spelling of the season, and one for the
season as it is given. -/
def tvTitleRows (title year : Text) (season : Option Text) (state : Text) (rows : List StateRow) :
    List StateRow :=
  let rows := updateWhere (fun row => row.isTitle title year && row.inSeason season)
    (fun row => { row with state := some state }) rows
  updateWhere (fun row => row.isTitle title year && row.season = season) (·.change state now) rows

/-- An operation. -/
def run (t : StateTables) : StateOp → StateTables
  | reset =>
    let toPending := updateWhere StateRow.isSearching fun row =>
      { row with state := some SubscribeState.pending.value }
    { movies := toPending t.movies, tvs := toPending t.tvs }
  | update isMovie rssid user fields state =>
    if isMovie then { t with movies := updateRows now isMovie rssid user fields state t.movies }
    else { t with tvs := updateRows now isMovie rssid user fields state t.tvs }
  | movieState title year rssid state =>
    if title = [] ∧ rssid = 0 then t
    else if rssid ≠ 0 then
      { t with movies := updateWhere (·.id = rssid) (·.change state now) t.movies }
    else { t with movies := updateWhere (·.isTitle title year) (·.change state now) t.movies }
  | tvState title year season rssid state =>
    if title = [] ∧ rssid = 0 then t
    else if rssid ≠ 0 then { t with tvs := updateWhere (·.id = rssid) (·.change state now) t.tvs }
    else { t with tvs := tvTitleRows now title year season state t.tvs }
  | resetStale cutoff =>
    let toError := updateWhere (fun row => row.isSearching && row.stateUpdatedAt.all (· < cutoff))
      fun row => { row with state := some SubscribeState.error.value, stateUpdatedAt := some now }
    { movies := toError t.movies, tvs := toError t.tvs }
  | service isMovie rssid state =>
    if isMovie then { t with movies := serviceRows now isMovie rssid state t.movies }
    else { t with tvs := serviceRows now isMovie rssid state t.tvs }

/-! ## What an operation is to do -/

/-- The state that an operation asks for. -/
def target : StateOp → Text
  | reset => SubscribeState.pending.value
  | update _ _ _ _ state | movieState _ _ _ state | tvState _ _ _ _ state
  | service _ _ state => state
  | resetStale _ => SubscribeState.error.value

/-- The rows that an operation is about.  A season stands for all its spellings. -/
def addressed (isMovie : Bool) (row : StateRow) : StateOp → Bool
  | reset => row.isSearching
  | update onMovies rssid user _ _ => onMovies = isMovie ∧ rssid ≠ 0 ∧ row.isOwned rssid user
  | movieState title year rssid _ =>
    isMovie = true ∧ if rssid ≠ 0 then row.id = rssid else title ≠ [] ∧ row.isTitle title year
  | tvState title year season rssid _ =>
    isMovie = false ∧
      if rssid ≠ 0 then row.id = rssid
      else title ≠ [] ∧ row.isTitle title year ∧ (row.inSeason season ∨ row.season = season)
  | resetStale cutoff => row.isSearching ∧ row.stateUpdatedAt.all (· < cutoff)
  | service onMovies rssid _ => onMovies = isMovie ∧ rssid ≠ 0 ∧ row.id = rssid

/-- The other columns that an operation is given. -/
def edit (isMovie : Bool) (row : StateRow) : StateOp → StateRow
  | update _ _ _ fields _ => fields.write isMovie row
  | _ => row

/-- What an addressed row is to be: in the state asked for, since now, and with its retry forgotten
exactly where the state is not the failure. -/
def wanted (op : StateOp) (isMovie : Bool) (row : StateRow) : StateRow :=
  { op.edit isMovie row with
    state := some op.target
    stateUpdatedAt := some now
    retryCount := if op.target = SubscribeState.error.value then row.retryCount else 0
    nextRetryAt := if op.target = SubscribeState.error.value then row.nextRetryAt else none }

/-- The operation changes exactly the rows that it is about, to what they are to be. -/
def Right (t : StateTables) (op : StateOp) : Prop :=
  op.run now t =
    { movies := updateWhere (op.addressed true) (op.wanted now true) t.movies
      tvs := updateWhere (op.addressed false) (op.wanted now false) t.tvs }

/-! ## The condition -/

/-- The condition on one table.  A reset finds its rows without a retry, and changed at this very
moment.  An update, of the repository or of the service, finds its rows without a retry unless the
new state is the failure; and the service is asked for a state that it knows, or that the row is in.
By title, the rows whose season is spelled otherwise were changed at this moment, and have no retry
unless the new state is the failure. -/
def Meets (isMovie : Bool) (rows : List StateRow) : StateOp → Prop
  | reset => ∀ row ∈ rows, row.isSearching → row.stateUpdatedAt = some now ∧ row.Idle
  | update onMovies rssid user fields state => ∀ row ∈ rows,
      (update onMovies rssid user fields state).addressed isMovie row →
        state = SubscribeState.error.value ∨ row.Idle
  | movieState _ _ _ _ | resetStale _ => True
  | tvState title year season rssid state => ∀ row ∈ rows,
      (tvState title year season rssid state).addressed isMovie row → rssid = 0 →
        row.season ≠ season →
          row.stateUpdatedAt = some now ∧ (state = SubscribeState.error.value ∨ row.Idle)
  | service onMovies rssid state =>
      (∀ row ∈ rows, (service onMovies rssid state).addressed isMovie row →
        state = SubscribeState.error.value ∨ row.Idle) ∧
      ∀ entity, onMovies = isMovie → rssid ≠ 0 →
        (rows.find? fun row => row.id = rssid) = some entity → serviceState state entity = state

/-! ## One statement -/

/-- Two updates leave the same rows where they leave the same of each. -/
theorem updateWhere_eq_iff {p q : StateRow → Bool} {f g : StateRow → StateRow}
    {rows : List StateRow} :
    updateWhere p f rows = updateWhere q g rows ↔
      ∀ row ∈ rows, (if p row then f row else row) = if q row then g row else row :=
  List.map_inj_left

theorem updateWhere_of_none {p : StateRow → Bool} {f : StateRow → StateRow}
    {rows : List StateRow} (h : ∀ row ∈ rows, p row = false) : updateWhere p f rows = rows := by
  refine (List.map_congr_left ?_).trans (List.map_id rows)
  intro row hrow
  simp [h row hrow]

/-- An update of the rows that an operation is about. -/
theorem updateWhere_eq_iff_of_same {p : StateRow → Bool} {f g : StateRow → StateRow}
    {rows : List StateRow} :
    updateWhere p f rows = updateWhere p g rows ↔ ∀ row ∈ rows, p row → f row = g row := by
  rw [updateWhere_eq_iff]
  refine forall₂_congr fun row _ => ?_
  by_cases hp : p row
  · simp [hp]
  · simp [hp]

variable {now}

/-- A row whose retry is forgotten exactly where the new state is not the failure. -/
def settle (now state : Text) (row : StateRow) : StateRow :=
  { row with
    state := some state
    stateUpdatedAt := some now
    retryCount := if state = SubscribeState.error.value then row.retryCount else 0
    nextRetryAt := if state = SubscribeState.error.value then row.nextRetryAt else none }

theorem change_eq_settle (state : Text) (row : StateRow) :
    row.change state now = settle now state row := by
  unfold StateRow.change settle
  by_cases herror : state = SubscribeState.error.value
  · simp [herror]
  · simp [herror]

theorem wanted_eq_settle (op : StateOp) (isMovie : Bool) (row : StateRow) :
    op.wanted now isMovie row = settle now op.target (op.edit isMovie row) := by
  cases op <;> rfl

/-- A row of which the state and the time alone are written. -/
theorem eq_settle_iff {state state' : Text} {row : StateRow} :
    { row with state := some state', stateUpdatedAt := some now } = settle now state row ↔
      state' = state ∧ (state = SubscribeState.error.value ∨ row.Idle) := by
  unfold settle StateRow.Idle
  by_cases herror : state = SubscribeState.error.value
  · simp [herror]
  · simp [herror]

/-- A row of which the state alone is written. -/
theorem state_eq_settle_iff {state : Text} {row : StateRow} :
    { row with state := some state } = settle now state row ↔
      row.stateUpdatedAt = some now ∧ (state = SubscribeState.error.value ∨ row.Idle) := by
  unfold settle StateRow.Idle
  by_cases herror : state = SubscribeState.error.value
  · simp [herror]
  · simp [herror]

/-! ## The operations, one by one -/

variable {rows : List StateRow}

/-- What an operation leaves of one table is right. -/
def RightOn (now : Text) (op : StateOp) (isMovie : Bool) (rows rows' : List StateRow) : Prop :=
  rows' = updateWhere (op.addressed isMovie) (op.wanted now isMovie) rows

/-- A table that an operation is not about. -/
theorem rightOn_of_none {op : StateOp} {isMovie : Bool}
    (h : ∀ row ∈ rows, op.addressed isMovie row = false) : RightOn now op isMovie rows rows :=
  (updateWhere_of_none h).symm

theorem reset_iff (isMovie : Bool) :
    RightOn now .reset isMovie rows (updateWhere StateRow.isSearching
        (fun row => { row with state := some SubscribeState.pending.value }) rows) ↔
      reset.Meets now isMovie rows := by
  unfold RightOn Meets
  refine updateWhere_eq_iff_of_same.trans (forall₂_congr fun row _ => imp_congr_right fun _ => ?_)
  rw [wanted_eq_settle]
  refine state_eq_settle_iff.trans (and_congr_right fun _ => ?_)
  have hpending : SubscribeState.pending.value ≠ SubscribeState.error.value := by decide
  simp [hpending]

theorem updateRows_iff {isMovie : Bool} {rssid : ℕ} {user : Option UserContext}
    {fields : GivenFields} {state : Text} :
    RightOn now (.update isMovie rssid user fields state) isMovie rows
        (updateRows now isMovie rssid user fields state rows) ↔
      (update isMovie rssid user fields state).Meets now isMovie rows := by
  unfold updateRows
  by_cases hid : rssid = 0
  · rw [if_pos hid]
    refine iff_of_true (rightOn_of_none ?_) ?_
    · intro row _
      simp [addressed, hid]
    · intro row _ haddressed
      simp [addressed, hid] at haddressed
  · rw [if_neg hid]
    have hsame : StateRow.isOwned rssid user =
        fun row => (update isMovie rssid user fields state).addressed isMovie row := by
      funext row
      simp [addressed, hid]
    unfold RightOn Meets
    rw [hsame]
    refine updateWhere_eq_iff_of_same.trans
      (forall₂_congr fun row _ => imp_congr_right fun _ => ?_)
    rw [wanted_eq_settle]
    refine eq_settle_iff.trans ?_
    simp [target, GivenFields.write, StateRow.Idle]

/-- What the two statements leave of a row: the second one writes the time where the season is
spelled as it is given. -/
theorem tvTitleRows_eq (title year : Text) (season : Option Text) (state : Text) :
    tvTitleRows now title year season state rows = rows.map fun row =>
      if row.isTitle title year then
        if row.season = season then settle now state row
        else if row.inSeason season then { row with state := some state }
        else row
      else row := by
  unfold tvTitleRows updateWhere
  rw [List.map_map]
  refine List.map_congr_left fun row _ => ?_
  simp only [Function.comp_apply, change_eq_settle]
  by_cases hname : row.isTitle title year
  · by_cases hspelled : row.inSeason season
    · have hname' : { row with state := some state }.isTitle title year = true := hname
      by_cases hexact : row.season = season
      · subst hexact
        simp [hname, hspelled, hname', settle]
      · simp [hname, hspelled, hexact, hname']
    · simp [hname, hspelled]
  · simp [hname]

theorem tvTitleRows_iff {title year : Text} {season : Option Text} {state : Text}
    (htitle : title ≠ []) :
    RightOn now (.tvState title year season 0 state) false rows
        (tvTitleRows now title year season state rows) ↔
      (tvState title year season 0 state).Meets now false rows := by
  unfold RightOn Meets
  rw [tvTitleRows_eq, updateWhere, List.map_inj_left]
  refine forall₂_congr fun row _ => ?_
  have hedit : (tvState title year season 0 state).edit false row = row := rfl
  rw [wanted_eq_settle, hedit, target]
  by_cases hname : row.isTitle title year
  · by_cases hexact : row.season = season
    · simp [addressed, htitle, hname, hexact]
    · by_cases hspelled : row.inSeason season
      · simp [addressed, htitle, hname, hexact, hspelled, state_eq_settle_iff]
      · simp [addressed, hname, hexact, hspelled]
  · simp [addressed, hname]

/-- The service writes the state of the first row of the id, as the branches leave it. -/
theorem serviceRows_eq {isMovie : Bool} {rssid : ℕ} {state : Text} (hid : rssid ≠ 0)
    {entity : StateRow} (hentity : (rows.find? fun row => row.id = rssid) = some entity) :
    serviceRows now isMovie rssid state rows = updateWhere (·.id = rssid) (fun row =>
      { row with state := some (serviceState state entity), stateUpdatedAt := some now }) rows := by
  simp only [serviceRows, hid, false_or, hentity, updateRows, if_false]
  refine List.map_congr_left fun row _ => ?_
  cases isMovie <;> simp [StateRow.isOwned, TvUpdate.owned, GivenFields.write]

theorem serviceRows_iff {isMovie : Bool} {rssid : ℕ} {state : Text} :
    RightOn now (.service isMovie rssid state) isMovie rows
        (serviceRows now isMovie rssid state rows) ↔
      (service isMovie rssid state).Meets now isMovie rows := by
  by_cases hid : rssid = 0
  · have hkept : serviceRows now isMovie rssid state rows = rows := by
      unfold serviceRows updateRows
      split <;> simp [hid]
    rw [hkept]
    refine iff_of_true (rightOn_of_none ?_) ⟨?_, ?_⟩
    · intro row _
      simp [addressed, hid]
    · intro row _ haddressed
      simp [addressed, hid] at haddressed
    · intro entity _ hne
      exact absurd hid hne
  have haddressed : ∀ row, (service isMovie rssid state).addressed isMovie row = true ↔
      row.id = rssid := by
    intro row
    simp [addressed, hid]
  cases hentity : rows.find? fun row => row.id = rssid with
  | none =>
    have hnone : ∀ row ∈ rows, row.id ≠ rssid := by
      simpa using List.find?_eq_none.mp hentity
    have hkept : serviceRows now isMovie rssid state rows = rows := by
      simp [serviceRows, hid, hentity]
    rw [hkept]
    refine iff_of_true (rightOn_of_none ?_) ⟨?_, ?_⟩
    · intro row hrow
      simpa [addressed, hid] using hnone row hrow
    · intro row hrow h
      exact absurd ((haddressed row).mp h) (hnone row hrow)
    · intro entity _ _ h
      rw [hentity] at h
      cases h
  | some entity =>
    have hsame : (fun row : StateRow => decide (row.id = rssid)) =
        fun row => (service isMovie rssid state).addressed isMovie row := by
      funext row
      rw [Bool.eq_iff_iff, haddressed, decide_eq_true_eq]
    have hmem : entity ∈ rows := List.mem_of_find?_eq_some hentity
    have hentityId : entity.id = rssid := by simpa using List.find?_some hentity
    unfold RightOn Meets
    rw [serviceRows_eq hid hentity, hsame]
    refine updateWhere_eq_iff_of_same.trans ?_
    have hrow : ∀ row : StateRow,
        { row with state := some (serviceState state entity), stateUpdatedAt := some now } =
            (service isMovie rssid state).wanted now isMovie row ↔
          serviceState state entity = state ∧ (state = SubscribeState.error.value ∨ row.Idle) :=
      fun row => (by rw [wanted_eq_settle]; exact eq_settle_iff)
    simp only [hrow, haddressed, hentity]
    constructor
    · intro h
      refine ⟨fun row hrow hid => (h row hrow hid).2, ?_⟩
      intro entity' _ _ h'
      obtain rfl := Option.some.inj h'
      exact (h entity hmem hentityId).1
    · intro ⟨hidle, hstate⟩ row hrow hrowId
      exact ⟨hstate entity trivial hid rfl, hidle row hrow hrowId⟩

/-- A statement that writes everything is right on the rows that it finds. -/
theorem rightOn_change {op : StateOp} {isMovie : Bool} {p : StateRow → Bool}
    (hp : ∀ row, p row = op.addressed isMovie row) (hedit : ∀ row, op.edit isMovie row = row) :
    RightOn now op isMovie rows (updateWhere p (·.change op.target now) rows) := by
  unfold RightOn
  refine updateWhere_eq_iff.mpr ?_
  intro row _
  rw [hp, wanted_eq_settle, hedit, change_eq_settle]

theorem resetStale_right (isMovie : Bool) (cutoff : Text) :
    RightOn now (.resetStale cutoff) isMovie rows
      (updateWhere (fun row => row.isSearching && row.stateUpdatedAt.all (· < cutoff))
        (fun row => { row with
          state := some SubscribeState.error.value, stateUpdatedAt := some now }) rows) := by
  unfold RightOn
  refine updateWhere_eq_iff.mpr ?_
  intro row _
  rw [wanted_eq_settle]
  have haddressed : (resetStale cutoff).addressed isMovie row =
      (row.isSearching && row.stateUpdatedAt.all (· < cutoff)) := by
    simp [addressed]
  rw [haddressed]
  split
  · exact eq_settle_iff.mpr ⟨rfl, .inl rfl⟩
  · rfl

/-- An operation is right where it is right on either table. -/
theorem right_iff_rightOn {t : StateTables} {op : StateOp} :
    op.Right now t ↔ RightOn now op true t.movies (op.run now t).movies ∧
      RightOn now op false t.tvs (op.run now t).tvs := by
  unfold Right RightOn
  generalize op.run now t = t'
  constructor
  · intro h
    subst h
    exact ⟨rfl, rfl⟩
  · intro ⟨hmovies, htvs⟩
    cases t'
    simp_all

/-- The table of the other kind. -/
theorem update_other {isMovie : Bool} {rssid : ℕ} {user : Option UserContext}
    {fields : GivenFields} {state : Text} :
    RightOn now (.update (!isMovie) rssid user fields state) isMovie rows rows ∧
      (update (!isMovie) rssid user fields state).Meets now isMovie rows := by
  have hnone : ∀ row ∈ rows,
      (update (!isMovie) rssid user fields state).addressed isMovie row = false := by
    intro row _
    cases isMovie <;> simp [addressed]
  refine ⟨rightOn_of_none hnone, ?_⟩
  intro row hrow h
  rw [hnone row hrow] at h
  cases h

theorem service_other {isMovie : Bool} {rssid : ℕ} {state : Text} :
    RightOn now (.service (!isMovie) rssid state) isMovie rows rows ∧
      (service (!isMovie) rssid state).Meets now isMovie rows := by
  have hnone : ∀ row ∈ rows, (service (!isMovie) rssid state).addressed isMovie row = false := by
    intro row _
    cases isMovie <;> simp [addressed]
  refine ⟨rightOn_of_none hnone, ?_, ?_⟩
  · intro row hrow h
    rw [hnone row hrow] at h
    cases h
  · intro entity h
    cases isMovie <;> cases h

theorem movieState_right {t : StateTables} {title year : Text} {rssid : ℕ} {state : Text} :
    (movieState title year rssid state).Right now t := by
  have htvs : RightOn now (.movieState title year rssid state) false t.tvs t.tvs :=
    rightOn_of_none fun row _ => by simp [addressed]
  rw [right_iff_rightOn, run]
  by_cases hgiven : title = [] ∧ rssid = 0
  · rw [if_pos hgiven]
    refine ⟨rightOn_of_none ?_, htvs⟩
    intro row _
    simp [addressed, hgiven]
  · rw [if_neg hgiven]
    by_cases hid : rssid = 0
    · have htitle : title ≠ [] := fun h => hgiven ⟨h, hid⟩
      rw [if_neg (not_not_intro hid)]
      exact ⟨rightOn_change (fun row => by simp [addressed, hid, htitle]) (fun _ => rfl), htvs⟩
    · rw [if_pos hid]
      exact ⟨rightOn_change (fun row => by simp [addressed, hid]) (fun _ => rfl), htvs⟩

theorem tvState_iff {t : StateTables} {title year : Text} {season : Option Text} {rssid : ℕ}
    {state : Text} :
    (tvState title year season rssid state).Right now t ↔
      (tvState title year season rssid state).Meets now false t.tvs := by
  have hmovies : RightOn now (.tvState title year season rssid state) true t.movies t.movies :=
    rightOn_of_none fun row _ => by simp [addressed]
  rw [right_iff_rightOn, run]
  by_cases hgiven : title = [] ∧ rssid = 0
  · rw [if_pos hgiven]
    have hnone : ∀ row ∈ t.tvs,
        (tvState title year season rssid state).addressed false row = false := by
      intro row _
      simp [addressed, hgiven]
    refine iff_of_true ⟨hmovies, rightOn_of_none hnone⟩ ?_
    intro row hrow h
    rw [hnone row hrow] at h
    cases h
  · rw [if_neg hgiven]
    by_cases hid : rssid = 0
    · subst hid
      have htitle : title ≠ [] := fun h => hgiven ⟨h, rfl⟩
      rw [if_neg (not_not_intro rfl)]
      exact (and_iff_right hmovies).trans (tvTitleRows_iff htitle)
    · rw [if_pos hid]
      refine iff_of_true ⟨hmovies, ?_⟩ ?_
      · exact rightOn_change (fun row => by simp [addressed, hid]) (fun _ => rfl)
      · intro row _ _ hzero
        exact absurd hzero hid

/-- An operation does what it is to do exactly where both tables meet the condition. -/
theorem right_iff_meets (now : Text) (t : StateTables) (op : StateOp) :
    op.Right now t ↔ op.Meets now true t.movies ∧ op.Meets now false t.tvs := by
  cases op with
  | reset => exact right_iff_rightOn.trans (and_congr (reset_iff true) (reset_iff false))
  | update isMovie rssid user fields state =>
    rw [right_iff_rightOn]
    cases isMovie with
    | false => exact and_congr (iff_of_true update_other.1 update_other.2) updateRows_iff
    | true => exact and_congr updateRows_iff (iff_of_true update_other.1 update_other.2)
  | movieState title year rssid state => exact iff_of_true movieState_right ⟨trivial, trivial⟩
  | tvState title year season rssid state =>
    rw [tvState_iff]
    refine (and_iff_right ?_).symm
    intro row _ h
    simp [addressed] at h
  | resetStale cutoff =>
    rw [right_iff_rightOn]
    exact iff_of_true ⟨resetStale_right true cutoff, resetStale_right false cutoff⟩
      ⟨trivial, trivial⟩
  | service isMovie rssid state =>
    rw [right_iff_rightOn]
    cases isMovie with
    | false => exact and_congr (iff_of_true service_other.1 service_other.2) serviceRows_iff
    | true => exact and_congr serviceRows_iff (iff_of_true service_other.1 service_other.2)

/-- **The operations that change a state**: along every sequence of operations, each one of which
comes with its time, each changes exactly the rows that it is about, to what they are to be, exactly
where the tables meet the condition whenever one is run. -/
theorem right_along_iff (t : StateTables) (ops : List (StateOp × Text)) :
    Run.Along (fun t op => op.1.run op.2 t) (fun t op => op.1.Right op.2 t) t ops ↔
      Run.Along (fun t op => op.1.run op.2 t)
        (fun t op => op.1.Meets op.2 true t.movies ∧ op.1.Meets op.2 false t.tvs) t ops := by
  constructor
  · exact Run.Along.imp fun t op => (right_iff_meets op.2 t op.1).mp
  · exact Run.Along.imp fun t op => (right_iff_meets op.2 t op.1).mpr

/-- A subscription that is searched for since midnight. -/
def searchedFor : StateRow where
  id := 1
  name := of "Show"
  year := some (of "2020")
  season := some (of "S01")
  state := some SubscribeState.searching.value
  stateUpdatedAt := some (of "2026-01-01 00:00:00")

/-- A subscription that failed, and is to be tried again. -/
def failedOnce : StateRow where
  id := 2
  name := of "Show"
  year := some (of "2020")
  season := some (of "S01")
  state := some SubscribeState.error.value
  stateUpdatedAt := some (of "2026-01-01 00:00:00")
  retryCount := 1
  nextRetryAt := some (of "2026-01-01 09:00:00")

/-- A reset leaves the time as it was; an update of the service keeps the retry; and by its title a
subscription whose season is spelled otherwise keeps both. -/
theorem time_and_retry_kept :
    ¬reset.Right (of "2026-01-01 08:00:00") ⟨[], [searchedFor]⟩ ∧
    ¬(service false 2 SubscribeState.running.value).Right (of "2026-01-01 08:00:00")
        ⟨[], [failedOnce]⟩ ∧
    ¬(tvState (of "Show") (of "2020") (some (of "1")) 0 SubscribeState.running.value).Right
        (of "2026-01-01 08:00:00") ⟨[], [failedOnce]⟩ := by
  unfold Right
  decide +kernel

end StateOp

end WolfNas
