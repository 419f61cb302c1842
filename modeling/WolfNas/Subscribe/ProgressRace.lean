import WolfNas.Subscribe.ProgressHandlers

/-!
# What the last event says of an episode

Once all handlers have returned, the stored list should lack the episodes whose last event is a
transfer and hold those whose last event is a failure.  The handler of a transfer drops its
event where the lock is busy, and the one of a failure takes no lock.

## Main definitions

* `lastEvent` — what the last event that names an episode was.
* `ProgressState.Settled` — the stored list is what the last events say.
* `ProgressState.Calm` — a step neither drops an event nor loses an update.

## Main results

* `ProgressState.inv_step` — a calm step keeps the list in line with the handlers that ended.
* `ProgressState.settled_of_calm` — a run of calm steps settles the list.
-/

namespace WolfNas

/-- The last event that names an episode; whether it is a failure. -/
def lastEvent : List ProgressHandler → ℕ → Option Bool
  | [], _ => none
  | x :: l, e =>
    (lastEvent l e).or (if e ∈ x.event.episodes then some x.event.isFailure else none)

theorem lastEvent_append (l l' : List ProgressHandler) (e : ℕ) :
    lastEvent (l ++ l') e = (lastEvent l' e).or (lastEvent l e) := by
  induction l with
  | nil => simp [lastEvent]
  | cons x l ih => simp [lastEvent, ih, Option.or_assoc]

/-- The episodes an event leaves of the stored list. -/
def ProgressEvent.apply (event : ProgressEvent) (row : TvRow) : List ℕ :=
  match event with
  | transferred downloaded totalEpisodes =>
    (if row.stored = [] then row.initial totalEpisodes else row.stored).filter (· ∉ downloaded)
  | failed failedEps => row.stored ++ failedEps

/-- The list already says what the event says. -/
def ProgressEvent.Reflected (event : ProgressEvent) (row : TvRow) : Prop :=
  ∀ e ∈ event.episodes, (e ∈ row.stored ↔ event.isFailure = true)

namespace ProgressState

variable {s : ProgressState} {place : ℕ} {x : ProgressHandler} {e : ℕ} {b : Bool} {row : TvRow}
  {phase : ProgressPhase}

/-! ## Conditions on a step -/

/-- All handlers have returned. -/
def Quiet (s : ProgressState) : Prop := ∀ x ∈ s.handlers, x.phase = .returned

/-- The stored list holds no episode whose last event is a transfer, and every one whose last
event is a failure. -/
def Settled (s : ProgressState) : Prop :=
  ∀ e b, lastEvent s.handlers e = some b → (e ∈ s.row.stored ↔ b = true)

/-- The handlers that are done with the list. -/
def done (l : List ProgressHandler) : List ProgressHandler := l.filter fun x => x.phase.ended

/-- Of the later events that are done with the list, the last one for an episode is not of the
other kind. -/
def InOrder (s : ProgressState) (place : ℕ) (x : ProgressHandler) : Prop :=
  ∀ e ∈ x.event.episodes,
    lastEvent (done (s.handlers.drop (place + 1))) e ≠ some !x.event.isFailure

/-- What the handler writes is what its event leaves of the list as it is stored now; a list
that it made from nothing has no episode whose last event was a transfer. -/
structure Current (s : ProgressState) (x : ProgressHandler) (lack : List ℕ) : Prop where
  sub : ∀ e ∈ lack, e ∈ x.event.apply s.row
  sup : ∀ e ∈ x.event.apply s.row, e ∈ lack
  fresh : x.event.isFailure = false → s.row.stored = [] → ∀ e ∈ lack,
    lastEvent (done s.handlers) e ≠ some false

/-- A step that neither drops an event nor loses an update. -/
def Calm (s : ProgressState) : ProgressMove → Prop
  | .advance place fault => match s.handlers[place]? with
    | none => True
    | some x => match x.phase with
      | .delivered => s.row.state = none → x.event.Reflected s.row
      | .found => x.event.isFailure = false → fault = false → s.lock ≠ none →
          x.event.Reflected s.row
      | .computed _ [] =>
          if s.row.state ≠ none ∧ fault = false then
            s.InOrder place x ∧ x.event.apply s.row = []
          else x.event.Reflected s.row
      | .writing _ lack => s.InOrder place x ∧ s.Current x lack
      | _ => True
  | _ => True

instance (s : ProgressState) : Decidable s.Quiet := by
  unfold Quiet
  infer_instance

instance (event : ProgressEvent) (row : TvRow) : Decidable (event.Reflected row) := by
  unfold ProgressEvent.Reflected
  infer_instance

instance (s : ProgressState) (place : ℕ) (x : ProgressHandler) : Decidable (s.InOrder place x) := by
  unfold InOrder
  infer_instance

theorem current_read_iff (s : ProgressState) (x : ProgressHandler) (lack : List ℕ) :
    s.Current x lack ↔ (∀ e ∈ lack, e ∈ x.event.apply s.row) ∧
      (∀ e ∈ x.event.apply s.row, e ∈ lack) ∧
      (x.event.isFailure = false → s.row.stored = [] → ∀ e ∈ lack,
        lastEvent (done s.handlers) e ≠ some false) :=
  ⟨fun h => ⟨h.sub, h.sup, h.fresh⟩, fun h => ⟨h.1, h.2.1, h.2.2⟩⟩

instance (s : ProgressState) (x : ProgressHandler) (lack : List ℕ) : Decidable (s.Current x lack) :=
  decidable_of_iff _ (current_read_iff s x lack).symm

instance (s : ProgressState) (move : ProgressMove) : Decidable (s.Calm move) := by
  unfold Calm
  split
  · split
    · infer_instance
    · split <;> infer_instance
  · infer_instance

/-! ## The invariant -/

/-- The stored list is what the last events of the handlers that are done say. -/
def Inv (s : ProgressState) : Prop :=
  ∀ e b, lastEvent (done s.handlers) e = some b → (e ∈ s.row.stored ↔ b = true)

/-- The handlers before and after the one at a place. -/
theorem handlers_eq (hx : s.handlers[place]? = some x) :
    s.handlers = s.handlers.take place ++ x :: s.handlers.drop (place + 1) ∧
      ∀ y, s.handlers.set place y =
        s.handlers.take place ++ y :: s.handlers.drop (place + 1) := by
  obtain ⟨hlt, hget⟩ := List.getElem?_eq_some_iff.mp hx
  refine ⟨?_, ?_⟩
  · rw [← hget, ← List.drop_eq_getElem_cons hlt, List.take_append_drop]
  · intro y
    exact List.set_eq_take_append_cons_drop.trans (if_pos hlt)

theorem lastEvent_done (l l' : List ProgressHandler) (x : ProgressHandler) (e : ℕ) :
    lastEvent (done (l ++ x :: l')) e = (lastEvent (done l') e).or
      ((if x.phase.ended = true ∧ e ∈ x.event.episodes then some x.event.isFailure else none).or
        (lastEvent (done l) e)) := by
  have hsplit : done (l ++ x :: l') = done l ++ (done [x] ++ done l') := by
    simp [done, ← List.filter_append]
  rw [hsplit, lastEvent_append, lastEvent_append, Option.or_assoc]
  congr 2
  cases hended : x.phase.ended <;> simp [done, lastEvent, hended]

/-- A step that does not end its handler keeps the invariant, if the list stays as it is. -/
theorem inv_of_same (hinv : s.Inv) (hx : s.handlers[place]? = some x)
    (hphase : phase.ended = x.phase.ended) (hrow : row.stored = s.row.stored)
    {lock : Option LockHolder} :
    Inv ⟨row, lock, s.handlers.set place { x with phase := phase }⟩ := by
  intro e b h
  obtain ⟨hsplit, hset⟩ := handlers_eq hx
  simp only [hset, lastEvent_done, hphase] at h
  simp only [hrow]
  refine hinv e b ?_
  rw [hsplit, lastEvent_done]
  exact h

/-- A step that ends its handler keeps the invariant, if the list says what the event says and
otherwise what it has to. -/
theorem inv_of_ended (hx : s.handlers[place]? = some x) (hbusy : x.phase.ended = false)
    (hphase : phase.ended = true)
    (hnamed : ∀ e ∈ x.event.episodes, (e ∈ row.stored ↔ x.event.isFailure = true) ∧
      lastEvent (done (s.handlers.drop (place + 1))) e ≠ some !x.event.isFailure)
    (hother : ∀ e ∉ x.event.episodes, ∀ b, lastEvent (done s.handlers) e = some b →
      (e ∈ row.stored ↔ b = true)) {lock : Option LockHolder} :
    Inv ⟨row, lock, s.handlers.set place { x with phase := phase }⟩ := by
  intro e b h
  obtain ⟨hsplit, hset⟩ := handlers_eq hx
  simp only [hset, lastEvent_done, hphase, true_and] at h
  by_cases he : e ∈ x.event.episodes
  · obtain ⟨hstored, hlater⟩ := hnamed e he
    rw [if_pos he] at h
    cases hlast : lastEvent (done (s.handlers.drop (place + 1))) e with
    | none =>
      rw [hlast] at h
      obtain rfl : x.event.isFailure = b := by simpa using h
      exact hstored
    | some c =>
      rw [hlast] at h hlater
      obtain rfl : c = b := by simpa using h
      have hkind : c = x.event.isFailure := by
        by_contra hc
        exact hlater (congrArg some (Bool.eq_not.mpr hc))
      rw [hkind]
      exact hstored
  · rw [if_neg he] at h
    refine hother e he b ?_
    rw [hsplit, lastEvent_done]
    simpa [hbusy] using h

/-- A step that ends its handler and writes nothing keeps the invariant where the list already
says what the event says. -/
theorem inv_of_reflected (hinv : s.Inv) (hx : s.handlers[place]? = some x)
    (hbusy : x.phase.ended = false) (hphase : phase.ended = true)
    (hreflected : x.event.Reflected s.row) (hrow : row.stored = s.row.stored)
    {lock : Option LockHolder} :
    Inv ⟨row, lock, s.handlers.set place { x with phase := phase }⟩ := by
  refine inv_of_ended hx hbusy hphase ?_ ?_
  · intro e he
    rw [hrow]
    refine ⟨hreflected e he, ?_⟩
    intro hlater
    obtain ⟨hsplit, -⟩ := handlers_eq hx
    have hlast : lastEvent (done s.handlers) e = some !x.event.isFailure := by
      rw [hsplit, lastEvent_done, hlater]
      rfl
    have hstored := (hreflected e he).symm.trans (hinv e _ hlast)
    cases hk : x.event.isFailure <;> simp [hk] at hstored
  · intro e _ b h
    rw [hrow]
    exact hinv e b h

/-- Writing what the event leaves of the stored list keeps the invariant. -/
theorem inv_of_current (hinv : s.Inv) (hx : s.handlers[place]? = some x)
    (hbusy : x.phase.ended = false) (hphase : phase.ended = true) {lack : List ℕ}
    (horder : s.InOrder place x) (hcurrent : s.Current x lack) (hrow : row.stored = lack)
    {lock : Option LockHolder} :
    Inv ⟨row, lock, s.handlers.set place { x with phase := phase }⟩ := by
  have hlack : ∀ e, e ∈ row.stored ↔ e ∈ x.event.apply s.row := by
    intro e
    rw [hrow]
    exact ⟨hcurrent.sub e, hcurrent.sup e⟩
  refine inv_of_ended hx hbusy hphase ?_ ?_
  · intro e he
    refine ⟨?_, horder e he⟩
    rw [hlack]
    cases hevent : x.event with
    | transferred downloaded totalEpisodes =>
      rw [hevent] at he
      have he : e ∈ downloaded := he
      simp [ProgressEvent.apply, ProgressEvent.isFailure, he]
    | failed failedEps =>
      rw [hevent] at he
      have he : e ∈ failedEps := he
      simp [ProgressEvent.apply, ProgressEvent.isFailure, he]
  · intro e he b h
    have hstored := hinv e b h
    rw [hlack, ← hstored]
    cases hevent : x.event with
    | transferred downloaded totalEpisodes =>
      rw [hevent] at he
      by_cases hnil : s.row.stored = []
      · have hb : b = false := by simpa [hnil] using hstored
        have hnot : e ∉ x.event.apply s.row := by
          intro hmem
          refine hcurrent.fresh (by simp [hevent, ProgressEvent.isFailure]) hnil e
            (hcurrent.sup e hmem) ?_
          rw [h, hb]
        rw [hevent] at hnot
        simp [hnil, hnot]
      · have he : e ∉ downloaded := he
        simp [ProgressEvent.apply, hnil, he]
    | failed failedEps =>
      rw [hevent] at he
      have hnot : e ∉ failedEps := he
      simp [ProgressEvent.apply, hnot]

/-- Deleting the subscription keeps the invariant where the event leaves nothing of the list. -/
theorem inv_of_finish (hinv : s.Inv) (hx : s.handlers[place]? = some x)
    (hbusy : x.phase.ended = false) (hphase : phase.ended = true)
    (horder : s.InOrder place x)
    (hnone : x.event.apply s.row = []) (hrow : row.stored = []) {lock : Option LockHolder} :
    Inv ⟨row, lock, s.handlers.set place { x with phase := phase }⟩ := by
  refine inv_of_current hinv hx hbusy hphase horder ?_ hrow
  exact ⟨by simp, by simp [hnone], by simp⟩

theorem stored_writeLack (row : TvRow) (lack : List ℕ) : (row.writeLack lack).stored = lack := by
  rw [TvRow.writeLack]
  split <;> rfl

theorem stored_writeState (row : TvRow) (state : SubscribeState) :
    (row.writeState state).stored = row.stored := by
  rw [TvRow.writeState]
  split <;> rfl

/-- A calm step of the handler of a transfer keeps the invariant. -/
theorem inv_transferred {downloaded : List ℕ} {totalEpisodes : ℕ} {fault : Bool} (hinv : s.Inv)
    (hx : s.handlers[place]? = some x) (hevent : x.event = .transferred downloaded totalEpisodes)
    (hcalm : s.Calm (.advance place fault)) :
    let r := ProgressHandler.nextTransferred downloaded totalEpisodes place fault s.row s.lock x.phase
    Inv ⟨r.1, r.2.1, s.handlers.set place { x with phase := r.2.2 }⟩ := by
  simp only [Calm, hx] at hcalm
  have hkind : x.event.isFailure = false := by rw [hevent]; rfl
  cases hphase : x.phase with
  | delivered =>
    simp only [hphase] at hcalm
    simp only [ProgressHandler.nextTransferred]
    split_ifs with hreturn
    · refine inv_of_reflected hinv hx (by rw [hphase]; rfl) rfl ?_ rfl
      rcases hreturn with hrow | hnone
      · exact hcalm hrow
      · simp [ProgressEvent.Reflected, hevent, ProgressEvent.episodes, hnone]
    · exact inv_of_same hinv hx (by rw [hphase]; rfl) rfl
  | found =>
    simp only [hphase] at hcalm
    simp only [ProgressHandler.nextTransferred]
    split_ifs with hfault hlock
    · exact inv_of_same hinv hx (by rw [hphase]; rfl) rfl
    · exact inv_of_same hinv hx (by rw [hphase]; rfl) rfl
    · exact inv_of_reflected hinv hx (by rw [hphase]; rfl) rfl
        (hcalm hkind (by simpa using hfault) hlock) rfl
  | admitted holding =>
    simp only [ProgressHandler.nextTransferred]
    split_ifs with hstored htotal
    · exact inv_of_same hinv hx (by rw [hphase]; rfl) rfl
    · refine inv_of_reflected hinv hx (by rw [hphase]; rfl) rfl ?_ rfl
      intro e _
      simp [Decidable.not_not.mp hstored, hkind]
    · exact inv_of_same hinv hx (by rw [hphase]; rfl) rfl
  | ranging holding => exact inv_of_same hinv hx (by rw [hphase]; rfl) rfl
  | computed holding lack =>
    cases lack with
    | nil =>
      simp only [hphase] at hcalm
      simp only [ProgressHandler.nextTransferred, if_true]
      by_cases hdeletes : s.row.state ≠ none ∧ fault = false
      · rw [if_pos hdeletes] at hcalm
        refine inv_of_finish hinv hx (by rw [hphase]; rfl) rfl hcalm.1 hcalm.2 ?_
        simp only [hdeletes.2, Bool.false_eq_true, if_false, TvRow.finalise, hdeletes.1]
        rfl
      · rw [if_neg hdeletes] at hcalm
        refine inv_of_reflected hinv hx (by rw [hphase]; rfl) rfl hcalm ?_
        cases fault with
        | true => rfl
        | false =>
          have hrow : s.row.state = none := by simpa using hdeletes
          simp [TvRow.finalise, hrow]
    | cons e es =>
      simp only [ProgressHandler.nextTransferred, reduceCtorEq, if_false]
      split
      · exact inv_of_same hinv hx (by rw [hphase]; rfl) rfl
      · exact inv_of_same hinv hx (by rw [hphase]; rfl) rfl
  | marking holding lack =>
    exact inv_of_same hinv hx (by rw [hphase]; rfl) (stored_writeState _ _)
  | writing holding lack =>
    simp only [hphase] at hcalm
    exact inv_of_current hinv hx (by rw [hphase]; rfl) rfl hcalm.1 hcalm.2 (stored_writeLack _ _)
  | leaving holding => exact inv_of_same hinv hx (by rw [hphase]; rfl) rfl
  | returned => exact inv_of_same hinv hx (by rw [hphase]; rfl) rfl

/-- A calm step of the handler of a failed transfer keeps the invariant. -/
theorem inv_failed {failedEps : List ℕ} {fault : Bool} (hinv : s.Inv)
    (hx : s.handlers[place]? = some x) (hevent : x.event = .failed failedEps)
    (hcalm : s.Calm (.advance place fault)) :
    let r := ProgressHandler.nextFailed failedEps s.row s.lock x.phase
    Inv ⟨r.1, r.2.1, s.handlers.set place { x with phase := r.2.2 }⟩ := by
  simp only [Calm, hx] at hcalm
  cases hphase : x.phase with
  | delivered =>
    simp only [hphase] at hcalm
    simp only [ProgressHandler.nextFailed]
    split_ifs with hrow
    · exact inv_of_reflected hinv hx (by rw [hphase]; rfl) rfl (hcalm hrow) rfl
    · exact inv_of_same hinv hx (by rw [hphase]; rfl) rfl
  | found =>
    simp only [ProgressHandler.nextFailed]
    by_cases hnone : failedEps = []
    · rw [if_pos hnone]
      refine inv_of_reflected hinv hx (by rw [hphase]; rfl) rfl ?_ (stored_writeState _ _)
      simp [ProgressEvent.Reflected, hevent, ProgressEvent.episodes, hnone]
    · rw [if_neg hnone]
      exact inv_of_same hinv hx (by rw [hphase]; rfl) (stored_writeState _ _)
  | writing holding lack =>
    simp only [hphase] at hcalm
    exact inv_of_current hinv hx (by rw [hphase]; rfl) rfl hcalm.1 hcalm.2 (stored_writeLack _ _)
  | admitted holding => exact inv_of_same hinv hx (by rw [hphase]; rfl) rfl
  | ranging holding => exact inv_of_same hinv hx (by rw [hphase]; rfl) rfl
  | computed holding lack => exact inv_of_same hinv hx (by rw [hphase]; rfl) rfl
  | marking holding lack => exact inv_of_same hinv hx (by rw [hphase]; rfl) rfl
  | leaving holding => exact inv_of_same hinv hx (by rw [hphase]; rfl) rfl
  | returned => exact inv_of_same hinv hx (by rw [hphase]; rfl) rfl

/-- A calm step keeps the list in line with the handlers that are done. -/
theorem inv_step (hinv : s.Inv) {move : ProgressMove} (hcalm : s.Calm move) : (s.step move).Inv := by
  cases move with
  | deliver event =>
    intro e b h
    refine hinv e b ?_
    simpa [step, done, ProgressPhase.ended] using h
  | expire => exact hinv
  | lockElsewhere =>
    simp only [step]
    split <;> exact hinv
  | unlockElsewhere =>
    simp only [step]
    split <;> exact hinv
  | advance place fault =>
    simp only [step, advance]
    cases hx : s.handlers[place]? with
    | none => exact hinv
    | some x =>
      change Inv ⟨(x.next place fault s.row s.lock).1, (x.next place fault s.row s.lock).2.1,
        s.handlers.set place { x with phase := (x.next place fault s.row s.lock).2.2 }⟩
      have hkind : (∃ downloaded totalEpisodes, x.event = .transferred downloaded totalEpisodes) ∨
          ∃ failedEps, x.event = .failed failedEps := by
        cases x.event <;> simp
      rcases hkind with ⟨downloaded, totalEpisodes, hevent⟩ | ⟨failedEps, hevent⟩
      · rw [ProgressHandler.next_transferred hevent]
        exact inv_transferred hinv hx hevent hcalm
      · rw [ProgressHandler.next_failed hevent]
        exact inv_failed hinv hx hevent hcalm

theorem done_of_quiet (h : s.Quiet) : done s.handlers = s.handlers := by
  refine List.filter_eq_self.mpr ?_
  intro x hx
  rw [h x hx]
  rfl

/-- **When the handlers settle the list**: no event is dropped that changes the list, and what a
handler writes is what its event leaves of the list as it stands, in the order of the events. -/
theorem settled_of_calm (start : ProgressState) (moves : List ProgressMove)
    (hstart : start.handlers = []) (hcalm : Run.Along step Calm start moves) (n : ℕ)
    (hquiet : ((moves.take n).foldl step start).Quiet) :
    ((moves.take n).foldl step start).Settled := by
  have hinv : ((moves.take n).foldl step start).Inv := by
    refine Run.invariant_along Inv ?_ (hcalm.take n) ?_
    · intro e b h
      simp [hstart, done, lastEvent] at h
    · intro s move hinv hmove
      exact inv_step hinv hmove
  intro e b h
  refine hinv e b ?_
  rw [done_of_quiet hquiet]
  exact h

/-- A subscription that lacks three episodes. -/
def lackingThree : ProgressState where
  row := { currentEp := 1, total := 3, lack := 3, episodes := some [1, 2, 3] }

/-- An episode is transferred, and then its transfer fails. -/
def oneByOne : List ProgressMove :=
  .deliver (.transferred [1] 3) :: List.replicate 8 (.advance 0 false) ++
    .deliver (.failed [1]) :: List.replicate 6 (.advance 1 false)

/-- Handlers that run one after the other settle the list. -/
theorem one_by_one_settled : (oneByOne.foldl step lackingThree).Settled := by
  have h := settled_of_calm lackingThree oneByOne rfl (by decide) 16 (by decide)
  exact h

/-- The second of two transfers finds the lock busy. -/
def busyLock : List ProgressMove :=
  [.deliver (.transferred [1] 3), .deliver (.transferred [2] 3)] ++
    List.replicate 2 (.advance 0 false) ++ List.replicate 2 (.advance 1 false) ++
      List.replicate 6 (.advance 0 false)

/-- A transfer fails while the handler of another one has read the list. -/
def staleList : List ProgressMove :=
  .deliver (.transferred [1] 3) :: List.replicate 3 (.advance 0 false) ++
    .deliver (.failed [4]) :: List.replicate 6 (.advance 1 false) ++
      List.replicate 5 (.advance 0 false)

/-- The transfer that finds the lock busy is dropped, and the failure that comes between is
overwritten. -/
theorem unsettled_runs :
    ((busyLock.foldl step lackingThree).Quiet ∧ ¬(busyLock.foldl step lackingThree).Settled) ∧
      (staleList.foldl step lackingThree).Quiet ∧
        ¬(staleList.foldl step lackingThree).Settled := by
  refine ⟨⟨by decide, ?_⟩, by decide, ?_⟩
  · intro h
    have hdropped : 2 ∉ (busyLock.foldl step lackingThree).row.stored := by
      simpa using h 2 false (by decide)
    exact hdropped (by decide)
  · intro h
    have hkept : 4 ∈ (staleList.foldl step lackingThree).row.stored := by
      simpa using h 4 true (by decide)
    exact absurd hkept (by decide)

end ProgressState

end WolfNas
