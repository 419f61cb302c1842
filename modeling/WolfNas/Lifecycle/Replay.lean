import WolfNas.Lib.Run
import WolfNas.Lifecycle.Projection

/-!
# Recording events again

The reconciler records what it finds in the histories again and again.  An event that is there
already is applied again as of its first occurrence, and may move the row on by its stage alone,
whenever it occurred.  So the row stays as it is exactly where no event has a later stage than the
row; and that fails exactly where a finished item has begun a new round and not come as far again.

## Main definitions

* `Recording.Rerecords` — a later call for an event that is there.
* `Settled` — what the events of an item say about its row, once all are recorded in order.
* `RedoneAfterPeak` — a new round begins after the last event of the highest stage.

## Main results

* `Settled.rerecord`, `Settled.recordAll` — one call, and all of them, keep the row.
* `peak_iff` — the row is below the highest stage exactly where a round began after it.
* `replay_safe_iff` — when recording again changes nothing.
-/

namespace WolfNas

open Text

variable {repo : LifecycleRepo} {item : LifecycleItem} {events : List Recording}

/-- The call records an event that is there already: the same key, item, stage and status; the
time of the call may be another. -/
def Recording.Rerecords (r e : Recording) : Prop :=
  r.eventKey = e.eventKey ∧ r.item = e.item ∧ r.stage = e.stage ∧ r.status = e.status ∧
    r.updateSnapshot = e.updateSnapshot

/-- The events that are applied to the row. -/
def applied (events : List Recording) : List Recording := events.filter (·.updateSnapshot)

/-- What events recorded in order say about the row: its times are those of events; no event
since the stage began has a later stage or begins a new round; and the newest event of its stage
is what the row says. -/
structure Settled (events : List Recording) (row : MediaLifecycle) : Prop where
  stage : ∃ e ∈ applied events, e.stage = row.stage
  started : ∃ e ∈ applied events, e.occurredAt = row.stageStartedAt
  last : ∃ e ∈ applied events, e.occurredAt = row.lastEventAt
  stays : ∀ e ∈ applied events, ¬Restarts row e.event
  newest : ∀ e ∈ applied events, stageRank e.stage = stageRank row.stage →
    row.lastEventAt ≤ e.occurredAt → e.status = row.status ∧ e.occurredAt = row.lastEventAt

/-! ## Recording again -/

/-- An event of no later stage leaves the row as it is. -/
theorem Settled.applySnapshot_core {row : MediaLifecycle} (h : Settled events row) {e : Recording}
    (he : e ∈ applied events) (hrank : stageRank e.stage ≤ stageRank row.stage)
    {s : MediaLifecycle} (hstage : s.stage = e.stage) (hstatus : s.status = e.status)
    (hlast : s.lastEventAt = e.occurredAt) :
    (applySnapshot (some row) e.event s).core = row.core := by
  have hevent : stageRank e.event.stage = stageRank e.stage := rfl
  have hoccurred : e.event.occurredAt = e.occurredAt := rfl
  rcases @applySnapshot_cases row s e.event with
    ⟨hrestart, -⟩ | ⟨-, hlt, -⟩ | ⟨-, heq, hle, hcore⟩ | ⟨-, -, -, hcore⟩
  · exact absurd hrestart (h.stays e he)
  · omega
  · rw [hevent] at heq
    obtain ⟨hstatus', hlast'⟩ := h.newest e he heq hle
    rw [hcore, hstage, hstatus, hlast, hstatus', hlast', stageRank_inj heq]
    rfl
  · exact hcore

/-- An event of a later stage takes the row to its stage. -/
theorem applySnapshot_stage {row s : MediaLifecycle} {e : LifecycleEvent}
    (hrank : stageRank row.stage < stageRank e.stage) : (applySnapshot (some row) e s).stage = s.stage := by
  have hcore : ∀ {a b : MediaLifecycle} {x y z}, a.core = (x, y, z) → b.stage = x → a.stage = b.stage := by
    intro a b x y z h hb
    rw [hb]
    exact congrArg Prod.fst h
  rcases @applySnapshot_cases row s e with
    ⟨-, h⟩ | ⟨-, -, h⟩ | ⟨-, heq, -, -⟩ | ⟨-, hle, -, -⟩
  · exact hcore h rfl
  · exact hcore h rfl
  · omega
  · omega

/-- What is there after all events of an item have been recorded in order. -/
structure Condensed (repo : LifecycleRepo) (item : LifecycleItem) (events : List Recording) : Prop where
  item_eq : ∀ e ∈ events, e.item = item
  events_eq : ∀ e ∈ events, repo.events e.eventKey = some e.event
  none_iff : repo.rows item = none ↔ applied events = []
  settled : ∀ row, repo.rows item = some row → Settled events row

/-- The core of a row, as it stands in the repository. -/
def coreAt (repo : LifecycleRepo) (item : LifecycleItem) :
    Option (LifecycleStage × LifecycleStatus × ℕ × ℕ) :=
  (repo.rows item).map MediaLifecycle.core

/-- A repository with the same events and the same row, apart from its details. -/
structure SameAs (repo' repo : LifecycleRepo) (item : LifecycleItem) (events : List Recording) :
    Prop where
  events_eq : ∀ e ∈ events, repo'.events e.eventKey = repo.events e.eventKey
  core_eq : coreAt repo' item = coreAt repo item

theorem Settled.of_core {row row' : MediaLifecycle} (h : Settled events row)
    (hcore : row'.core = row.core) : Settled events row' := by
  obtain ⟨stage, status, started, last, details⟩ := row
  obtain ⟨stage', status', started', last', details'⟩ := row'
  simp only [MediaLifecycle.core, Prod.mk.injEq] at hcore
  obtain ⟨rfl, rfl, rfl, rfl⟩ := hcore
  exact ⟨h.stage, h.started, h.last, h.stays, h.newest⟩

theorem Condensed.of_sameAs {repo' : LifecycleRepo} (h : Condensed repo item events)
    (hsame : SameAs repo' repo item events) : Condensed repo' item events := by
  have hcore := hsame.core_eq
  simp only [coreAt] at hcore
  refine ⟨h.item_eq, fun e he => (hsame.events_eq e he).trans (h.events_eq e he), ?_, ?_⟩
  · rw [← h.none_iff, ← Option.map_eq_none_iff (f := MediaLifecycle.core), hcore,
      Option.map_eq_none_iff]
  · intro row hrow
    rw [hrow, Option.map_some] at hcore
    obtain ⟨row', hrow', heq⟩ := Option.map_eq_some_iff.mp hcore.symm
    exact (h.settled row' hrow').of_core heq.symm

/-- No event has a later stage than the row. -/
def AtPeak (repo : LifecycleRepo) (item : LifecycleItem) (events : List Recording) : Prop :=
  ∀ row, repo.rows item = some row → ∀ e ∈ applied events, stageRank e.stage ≤ stageRank row.stage

/-- Recording an event again changes nothing, where no event has a later stage. -/
theorem Condensed.rerecord (h : Condensed repo item events) (hpeak : AtPeak repo item events)
    {r e : Recording} (he : e ∈ events) (hr : r.Rerecords e) :
    SameAs (repo.recordEvent r).1 repo item events := by
  obtain ⟨hkey, hitem, hstage, hstatus, hupdate⟩ := hr
  have hthere : repo.events r.eventKey = some e.event := by rw [hkey, h.events_eq e he]
  have heitem : e.event.item = item := h.item_eq e he
  rw [LifecycleRepo.recordEvent, hthere]
  simp only
  split
  · rename_i hflag
    have hmem : e ∈ applied events := List.mem_filter.mpr ⟨he, by rw [← hupdate]; exact hflag⟩
    refine ⟨fun _ _ => rfl, ?_⟩
    rw [heitem]
    simp only [coreAt, Function.update_self]
    cases hrow : repo.rows item with
    | none =>
      rw [h.none_iff.mp hrow] at hmem
      simp at hmem
    | some row =>
      rw [Option.map_some, Option.map_some, (h.settled row hrow).applySnapshot_core hmem
        (hpeak row hrow e hmem) hstage hstatus rfl]
  · exact ⟨fun _ _ => rfl, rfl⟩

/-- So does recording any of them any number of times. -/
theorem Condensed.rerecordAll (h : Condensed repo item events) (hpeak : AtPeak repo item events)
    {replays : List Recording} (hreplays : ∀ r ∈ replays, ∃ e ∈ events, r.Rerecords e) :
    SameAs (repo.recordAll replays) repo item events := by
  refine Run.invariant (fun repo' => SameAs repo' repo item events) ⟨fun _ _ => rfl, rfl⟩ ?_
  intro repo' hsame r hr
  obtain ⟨e, he, hrerecords⟩ := hreplays r hr
  have hpeak' : AtPeak repo' item events := by
    intro row hrow f hf
    have hcore := hsame.core_eq
    simp only [coreAt, hrow, Option.map_some] at hcore
    obtain ⟨row', hrow', heq⟩ := Option.map_eq_some_iff.mp hcore.symm
    have hstage : row'.stage = row.stage := congrArg Prod.fst heq
    rw [← hstage]
    exact hpeak row' hrow' f hf
  have hstep := (h.of_sameAs hsame).rerecord hpeak' he hrerecords
  exact ⟨fun f hf => (hstep.events_eq f hf).trans (hsame.events_eq f hf),
    hstep.core_eq.trans hsame.core_eq⟩

/-- Where an event has a later stage, recording it again takes the row there. -/
theorem Condensed.atPeak_of_safe (h : Condensed repo item events)
    (hsafe : ∀ replays : List Recording, (∀ r ∈ replays, ∃ e ∈ events, r.Rerecords e) →
      (repo.recordAll replays).stageStatus item = repo.stageStatus item) :
    AtPeak repo item events := by
  intro row hrow e he
  by_contra hlt
  obtain ⟨hmem, hflag⟩ := List.mem_filter.mp he
  have hsame := hsafe [e] fun r hr => ⟨e, hmem, by simp [List.mem_singleton.mp hr, Recording.Rerecords]⟩
  have heitem : e.event.item = item := h.item_eq e hmem
  simp only [LifecycleRepo.recordAll, List.foldl_cons, List.foldl_nil, LifecycleRepo.recordEvent,
    h.events_eq e hmem, LifecycleRepo.stageStatus, if_pos hflag, heitem, Function.update_self, hrow,
    Option.map_some, Option.some.injEq, Prod.mk.injEq] at hsame
  have hstage := @applySnapshot_stage row { e.snapshot with lastEventAt := e.event.occurredAt } e.event
    (Nat.lt_of_not_le hlt)
  rw [hsame.1] at hstage
  exact hlt (congrArg stageRank hstage).ge

/-! ## Recording in order -/

theorem applied_concat {e : Recording} :
    applied (events ++ [e]) = if e.updateSnapshot then applied events ++ [e] else applied events := by
  simp only [applied, List.filter_append]
  split
  · rename_i hflag
    simp [hflag]
  · rename_i hflag
    simp [hflag]

/-- A row that the newest event has just been written to. -/
theorem Settled.of_newest {row : MediaLifecycle} {e : Recording}
    (hnewer : ∀ f ∈ applied events, f.occurredAt < e.occurredAt) (he : e ∈ applied (events ++ [e]))
    (hsplit : applied (events ++ [e]) = applied events ++ [e])
    (hcore : row.core = (e.stage, e.status, e.occurredAt, e.occurredAt)) :
    Settled (events ++ [e]) row := by
  obtain ⟨stage, status, started, last, details⟩ := row
  simp only [MediaLifecycle.core, Prod.mk.injEq] at hcore
  obtain ⟨rfl, rfl, rfl, rfl⟩ := hcore
  have hle : ∀ f ∈ applied (events ++ [e]), f.occurredAt ≤ e.occurredAt := by
    intro f hf
    rw [hsplit] at hf
    rcases List.mem_append.mp hf with hf | hf
    · exact (hnewer f hf).le
    · rw [List.mem_singleton.mp hf]
  refine ⟨⟨e, he, rfl⟩, ⟨e, he, rfl⟩, ⟨e, he, rfl⟩, ?_, ?_⟩
  · intro f hf hrestart
    exact absurd (hle f hf) (Nat.not_le.mpr hrestart.2.2)
  · intro f hf _ hlast
    rw [hsplit] at hf
    rcases List.mem_append.mp hf with hf | hf
    · exact absurd hlast (Nat.not_le.mpr (hnewer f hf))
    · rw [List.mem_singleton.mp hf]
      exact ⟨rfl, rfl⟩

/-- A further event, newer than all before it: what it does to the row. -/
theorem Settled.concat {row : MediaLifecycle} (h : Settled events row) {e : Recording}
    (hflag : e.updateSnapshot = true) (hnewer : ∀ f ∈ events, f.occurredAt < e.occurredAt) :
    Settled (events ++ [e]) (applySnapshot (some row) e.event e.snapshot) := by
  have hsplit : applied (events ++ [e]) = applied events ++ [e] := by
    rw [applied_concat, if_pos hflag]
  have he : e ∈ applied (events ++ [e]) := by simp [hsplit]
  have hmem : ∀ f ∈ applied events, f ∈ applied (events ++ [e]) := by
    intro f hf
    simp [hsplit, hf]
  have hnewer : ∀ f ∈ applied events, f.occurredAt < e.occurredAt :=
    fun f hf => hnewer f (List.mem_filter.mp hf).1
  obtain ⟨last, hlast, hlasteq⟩ := h.last
  have hlt := hnewer last hlast
  have hevent : stageRank e.event.stage = stageRank e.stage := rfl
  have hoccurred : e.event.occurredAt = e.occurredAt := rfl
  rcases @applySnapshot_cases row e.snapshot e.event with
    ⟨-, hcore⟩ | ⟨-, -, hcore⟩ | ⟨hnot, heq, hle, hcore⟩ | ⟨hnot, -, hold, hcore⟩
  · exact Settled.of_newest hnewer he hsplit hcore
  · refine Settled.of_newest hnewer he hsplit (hcore.trans ?_)
    have hmax : max e.snapshot.lastEventAt row.lastEventAt = e.occurredAt :=
      max_eq_left (by rw [← hlasteq]; exact hlt.le)
    rw [hmax]
    rfl
  · -- The same stage: its start stays, and the event is the newest one.
    have hstage : e.stage = row.stage := stageRank_inj heq
    obtain ⟨started, hstarted, hstartedeq⟩ := h.started
    refine @Settled.of_core _ ⟨e.stage, e.status, row.stageStartedAt, e.occurredAt, {}⟩ _ ?_ hcore
    refine ⟨⟨e, he, rfl⟩, ⟨started, hmem started hstarted, hstartedeq⟩, ⟨e, he, rfl⟩, ?_, ?_⟩
    · intro f hf hrestart
      have hrestart : Restarts row f.event := by
        simpa only [Restarts, hstage] using hrestart
      rw [hsplit] at hf
      rcases List.mem_append.mp hf with hf | hf
      · exact h.stays f hf hrestart
      · rw [List.mem_singleton.mp hf] at hrestart
        exact hnot hrestart
    · intro f hf _ hle
      rw [hsplit] at hf
      rcases List.mem_append.mp hf with hf | hf
      · exact absurd hle (Nat.not_le.mpr (hnewer f hf))
      · rw [List.mem_singleton.mp hf]
        exact ⟨rfl, rfl⟩
  · have hlower : stageRank e.stage < stageRank row.stage := by
      rcases hold with hlower | hold
      · exact hlower
      · omega
    refine Settled.of_core ?_ hcore
    obtain ⟨stage, hstage, hstageeq⟩ := h.stage
    obtain ⟨started, hstarted, hstartedeq⟩ := h.started
    refine ⟨⟨stage, hmem stage hstage, hstageeq⟩, ⟨started, hmem started hstarted, hstartedeq⟩,
      ⟨last, hmem last hlast, hlasteq⟩, ?_, ?_⟩
    · intro f hf
      rw [hsplit] at hf
      rcases List.mem_append.mp hf with hf | hf
      · exact h.stays f hf
      · rw [List.mem_singleton.mp hf]
        exact hnot
    · intro f hf hrank
      rw [hsplit] at hf
      rcases List.mem_append.mp hf with hf | hf
      · exact h.newest f hf hrank
      · rw [List.mem_singleton.mp hf] at hrank
        omega

/-- Events of one item with keys and times of their own, in the order of their times, where the
repository holds nothing of the item. -/
structure InOrder (repo : LifecycleRepo) (item : LifecycleItem) (events : List Recording) : Prop where
  item_eq : ∀ e ∈ events, e.item = item
  keys : (events.map (·.eventKey)).Nodup
  times : events.Pairwise fun e f => e.occurredAt < f.occurredAt
  fresh : ∀ e ∈ events, repo.events e.eventKey = none
  unknown : repo.rows item = none

theorem InOrder.init {e : Recording} (h : InOrder repo item (events ++ [e])) :
    InOrder repo item events := by
  have hkeys := h.keys
  rw [List.map_append] at hkeys
  exact ⟨fun f hf => h.item_eq f (List.mem_append_left _ hf), (List.nodup_append.mp hkeys).1,
    (List.pairwise_append.mp h.times).1, fun f hf => h.fresh f (List.mem_append_left _ hf), h.unknown⟩

theorem InOrder.newest {e : Recording} (h : InOrder repo item (events ++ [e])) :
    ∀ f ∈ events, f.occurredAt < e.occurredAt := by
  intro f hf
  exact (List.pairwise_append.mp h.times).2.2 f hf e (List.mem_singleton.mpr rfl)

/-- A further event has a key that is not there. -/
theorem InOrder.fresh_key {e : Recording} (h : InOrder repo item (events ++ [e])) :
    (repo.recordAll events).events e.eventKey = none := by
  have hkeys := h.keys
  rw [List.map_append] at hkeys
  have hne : ∀ f ∈ events, f.eventKey ≠ e.eventKey := by
    intro f hf heq
    exact (List.nodup_append.mp hkeys).2.2 _ (List.mem_map.mpr ⟨f, hf, rfl⟩) _
      (by simp) heq
  refine Run.invariant (fun repo' : LifecycleRepo => repo'.events e.eventKey = none)
    (h.fresh e (by simp)) ?_
  intro repo' hnone f hf
  rw [LifecycleRepo.recordEvent]
  split
  · split
    · exact hnone
    · exact hnone
  · simp only
    split
    · simpa [Function.update_of_ne (hne f hf).symm] using hnone
    · simpa [Function.update_of_ne (hne f hf).symm] using hnone

/-- What is there after the events have been recorded in order. -/
theorem InOrder.condensed (h : InOrder repo item events) :
    Condensed (repo.recordAll events) item events := by
  induction events using List.reverseRecOn with
  | nil => exact ⟨by simp, by simp, by simpa [LifecycleRepo.recordAll, applied] using h.unknown,
      by simp [LifecycleRepo.recordAll, h.unknown]⟩
  | append_singleton events e ih =>
    have ih := ih h.init
    have hfresh := h.fresh_key
    have heitem : e.item = item := h.item_eq e (by simp)
    have hkeys := h.keys
    rw [List.map_append] at hkeys
    have hne : ∀ f ∈ events, f.eventKey ≠ e.eventKey := by
      intro f hf heq
      exact (List.nodup_append.mp hkeys).2.2 _ (List.mem_map.mpr ⟨f, hf, rfl⟩) _ (by simp) heq
    have hevents : ∀ f ∈ events ++ [e], Function.update (repo.recordAll events).events e.eventKey
        (some e.event) f.eventKey = some f.event := by
      intro f hf
      rcases List.mem_append.mp hf with hf | hf
      · rw [Function.update_of_ne (hne f hf), ih.events_eq f hf]
      · rw [List.mem_singleton.mp hf, Function.update_self]
    have hstep : repo.recordAll (events ++ [e]) = ((repo.recordAll events).recordEvent e).1 := by
      simp [LifecycleRepo.recordAll]
    rw [hstep, LifecycleRepo.recordEvent, hfresh]
    simp only
    by_cases hflag : e.updateSnapshot = true
    · rw [if_pos hflag]
      have hsplit : applied (events ++ [e]) = applied events ++ [e] := by
        rw [applied_concat, if_pos hflag]
      refine ⟨h.item_eq, hevents, ?_, ?_⟩
      · simp [heitem, hsplit]
      · intro row hrow
        simp only [heitem, Function.update_self, Option.some.injEq] at hrow
        rw [← hrow]
        cases hold : (repo.recordAll events).rows item with
        | none =>
          have hnil := ih.none_iff.mp hold
          exact Settled.of_newest (by simp [hnil]) (by simp [hsplit]) hsplit rfl
        | some row => exact (ih.settled row hold).concat hflag h.newest
    · rw [if_neg hflag]
      have hsplit : applied (events ++ [e]) = applied events := by
        rw [applied_concat, if_neg hflag]
      refine ⟨h.item_eq, hevents, by rw [hsplit]; exact ih.none_iff, ?_⟩
      intro row hrow
      obtain ⟨hstage, hstarted, hlast, hstays, hnewest⟩ := ih.settled row hrow
      rw [← hsplit] at hstage hstarted hlast hstays hnewest
      exact ⟨hstage, hstarted, hlast, hstays, hnewest⟩

/-! ## New rounds -/

/-- A new round begins after the last event of the highest stage, which is one that a round ends
with. -/
def RedoneAfterPeak (events : List Recording) : Prop :=
  ∃ f ∈ applied events, f.stage.Terminal ∧
    (∀ g ∈ applied events, stageRank g.stage ≤ stageRank f.stage) ∧
    ∃ e ∈ applied events, e.eventType ∈ restartEvents ∧
      ∀ g ∈ applied events, g.stage = f.stage → g.occurredAt < e.occurredAt

instance (events : List Recording) : Decidable (RedoneAfterPeak events) :=
  inferInstanceAs (Decidable (∃ f ∈ _, _ ∧ _ ∧ ∃ e ∈ _, _ ∧ _))

/-- A round that began stays one after an event of a lower stage than the highest. -/
theorem redoneAfterPeak_concat {f x e : Recording}
    (hsplit : applied (events ++ [x]) = applied events ++ [x]) (hf : f ∈ applied events)
    (hterminal : f.stage.Terminal)
    (hpeak : ∀ g ∈ applied events, stageRank g.stage ≤ stageRank f.stage)
    (he : e ∈ applied (events ++ [x])) (htype : e.eventType ∈ restartEvents)
    (hafter : ∀ g ∈ applied events, g.stage = f.stage → g.occurredAt < e.occurredAt)
    (hlower : stageRank x.stage < stageRank f.stage) : RedoneAfterPeak (events ++ [x]) := by
  refine ⟨f, by simp [hsplit, hf], hterminal, ?_, e, he, htype, ?_⟩
  · intro g hg
    rw [hsplit] at hg
    rcases List.mem_append.mp hg with hg | hg
    · exact hpeak g hg
    · rw [List.mem_singleton.mp hg]
      exact hlower.le
  · intro g hg hstage
    rw [hsplit] at hg
    rcases List.mem_append.mp hg with hg | hg
    · exact hafter g hg hstage
    · rw [List.mem_singleton.mp hg] at hstage
      rw [hstage] at hlower
      exact absurd hlower (lt_irrefl _)

/-- What one further event does to the row, and to whether a round began after the highest
stage. -/
theorem Settled.below_concat_iff {row : MediaLifecycle} (h : Settled events row) {x : Recording}
    (hflag : x.updateSnapshot = true) (hnewer : ∀ f ∈ events, f.occurredAt < x.occurredAt)
    (ih : (∃ g ∈ applied events, stageRank row.stage < stageRank g.stage) ↔ RedoneAfterPeak events) :
    (∃ g ∈ applied (events ++ [x]),
      stageRank (applySnapshot (some row) x.event x.snapshot).stage < stageRank g.stage) ↔
      RedoneAfterPeak (events ++ [x]) := by
  have hsplit : applied (events ++ [x]) = applied events ++ [x] := by
    rw [applied_concat, if_pos hflag]
  have hnewer : ∀ f ∈ applied events, f.occurredAt < x.occurredAt :=
    fun f hf => hnewer f (List.mem_filter.mp hf).1
  have hx : x ∈ applied (events ++ [x]) := by simp [hsplit]
  have hcases : ∀ g ∈ applied (events ++ [x]), g ∈ applied events ∨ g = x := by
    intro g hg
    simpa [hsplit] using hg
  have hmem : ∀ g ∈ applied events, g ∈ applied (events ++ [x]) := by
    intro g hg
    simp [hsplit, hg]
  have hle : ∀ g ∈ applied (events ++ [x]), g.occurredAt ≤ x.occurredAt := by
    intro g hg
    rcases hcases g hg with hg | rfl
    · exact (hnewer g hg).le
    · exact le_rfl
  -- Where the event makes the stage, no later stage is left but one before a new round.
  have hdown : RedoneAfterPeak (events ++ [x]) →
      ∃ g ∈ applied (events ++ [x]), stageRank x.stage < stageRank g.stage := by
    intro ⟨f, hf, _, hpeak, e, he, _, hafter⟩
    refine ⟨f, hf, lt_of_le_of_ne (hpeak x hx) ?_⟩
    intro heq
    exact absurd (hle e he) (Nat.not_le.mpr (hafter x hx (stageRank_inj heq)))
  -- A later stage among the events before, and the round after it.
  have hup : (∃ g ∈ applied events, stageRank row.stage < stageRank g.stage) →
      ∀ g ∈ applied events, stageRank x.stage < stageRank g.stage →
        RedoneAfterPeak (events ++ [x]) := by
    intro hlater g hg hlt
    obtain ⟨f, hf, hterminal, hpeak, e, he, htype, hafter⟩ := ih.mp hlater
    exact redoneAfterPeak_concat hsplit hf hterminal hpeak (hmem e he) htype hafter
      (hlt.trans_le (hpeak g hg))
  have hold : ∀ {g}, g ∈ applied (events ++ [x]) → stageRank x.stage < stageRank g.stage →
      g ∈ applied events := by
    intro g hg hlt
    rcases hcases g hg with hg | rfl
    · exact hg
    · exact absurd hlt (lt_irrefl _)
  have hevent : x.event.stage = x.stage := rfl
  obtain ⟨stage, hstage, hstageeq⟩ := h.stage
  rcases @applySnapshot_cases row x.snapshot x.event with
    ⟨hrestart, hcore⟩ | ⟨hnot, hrank, hcore⟩ | ⟨hnot, hrank, -, hcore⟩ | ⟨hnot, hrank, hor, hcore⟩
  · have hnow : (applySnapshot (some row) x.event x.snapshot).stage = x.stage := congrArg Prod.fst hcore
    rw [hnow]
    refine ⟨?_, hdown⟩
    intro ⟨g, hg, hlt⟩
    by_cases hlater : ∃ g ∈ applied events, stageRank row.stage < stageRank g.stage
    · exact hup hlater g (hold hg hlt) hlt
    · have hpeak : ∀ g ∈ applied events, stageRank g.stage ≤ stageRank stage.stage := by
        intro g hg
        rw [hstageeq]
        by_contra hlt
        exact hlater ⟨g, hg, Nat.lt_of_not_le hlt⟩
      exact redoneAfterPeak_concat hsplit hstage (by rw [hstageeq]; exact hrestart.1) hpeak hx
        hrestart.2.1 (fun g hg _ => hnewer g hg) (hlt.trans_le (hpeak g (hold hg hlt)))
  · have hnow : (applySnapshot (some row) x.event x.snapshot).stage = x.stage := congrArg Prod.fst hcore
    rw [hnow]
    refine ⟨?_, hdown⟩
    intro ⟨g, hg, hlt⟩
    rw [hevent] at hrank
    exact hup ⟨g, hold hg hlt, hrank.trans hlt⟩ g (hold hg hlt) hlt
  · have hnow : (applySnapshot (some row) x.event x.snapshot).stage = x.stage := congrArg Prod.fst hcore
    rw [hnow]
    refine ⟨?_, hdown⟩
    intro ⟨g, hg, hlt⟩
    rw [hevent] at hrank
    exact hup ⟨g, hold hg hlt, by omega⟩ g (hold hg hlt) hlt
  · have hnow : (applySnapshot (some row) x.event x.snapshot).stage = row.stage := congrArg Prod.fst hcore
    rw [hnow]
    obtain ⟨last, hlast, hlasteq⟩ := h.last
    obtain ⟨started, hstarted, hstartedeq⟩ := h.started
    have hlower : stageRank x.stage < stageRank row.stage := by
      rcases hor with hlower | hold
      · exact hlower
      · have hlt := hnewer last hlast
        have hoccurred : x.event.occurredAt = x.occurredAt := rfl
        omega
    constructor
    · intro ⟨g, hg, hlt⟩
      exact hup ⟨g, hold hg (hlower.trans hlt), hlt⟩ g (hold hg (hlower.trans hlt)) (hlower.trans hlt)
    · intro ⟨f, hf, hterminal, hpeak, e, he, htype, hafter⟩
      have hreach : stageRank row.stage ≤ stageRank f.stage := by
        rw [← hstageeq]
        exact hpeak stage (hmem stage hstage)
      have hf' : f ∈ applied events := hold hf (hlower.trans_le hreach)
      rcases hcases e he with he | rfl
      · obtain ⟨g, hg, hlt⟩ := ih.mpr ⟨f, hf', hterminal, fun g hg => hpeak g (hmem g hg), e, he, htype,
          fun g hg => hafter g (hmem g hg)⟩
        exact ⟨g, hmem g hg, hlt⟩
      · -- The event begins no new round, so the row is at no stage that a round ends with.
        refine ⟨f, hf, lt_of_le_of_ne hreach ?_⟩
        intro heq
        refine hnot ⟨by rw [stageRank_inj heq]; exact hterminal, htype, ?_⟩
        rw [← hstartedeq]
        exact hnewer started hstarted

/-- **The row is below the highest stage** exactly where a round began after it. -/
theorem peak_iff (h : InOrder repo item events) :
    AtPeak (repo.recordAll events) item events ↔ ¬RedoneAfterPeak events := by
  have hbelow : ∀ row, (repo.recordAll events).rows item = some row →
      ((∃ g ∈ applied events, stageRank row.stage < stageRank g.stage) ↔ RedoneAfterPeak events) := by
    induction events using List.reverseRecOn with
    | nil => simp [applied, RedoneAfterPeak]
    | append_singleton events x ih =>
      have hinit := h.init.condensed
      have hstep : repo.recordAll (events ++ [x]) = ((repo.recordAll events).recordEvent x).1 := by
        simp [LifecycleRepo.recordAll]
      have hitem : x.item = item := h.item_eq x (by simp)
      intro row hrow
      rw [hstep, LifecycleRepo.recordEvent, h.fresh_key] at hrow
      simp only at hrow
      by_cases hflag : x.updateSnapshot = true
      · simp only [if_pos hflag, hitem, Function.update_self, Option.some.injEq] at hrow
        rw [← hrow]
        cases hold : (repo.recordAll events).rows item with
        | none =>
          have hnil := hinit.none_iff.mp hold
          have hsingle : applied (events ++ [x]) = [x] := by rw [applied_concat, if_pos hflag, hnil]; rfl
          simp [RedoneAfterPeak, hsingle, applySnapshot, Recording.snapshot]
        | some row =>
          exact (hinit.settled row hold).below_concat_iff hflag h.newest (ih h.init row hold)
      · rw [if_neg hflag] at hrow
        have hsame : applied (events ++ [x]) = applied events := by rw [applied_concat, if_neg hflag]
        rw [RedoneAfterPeak, hsame]
        exact ih h.init row hrow
  constructor
  · intro hpeak hredone
    obtain ⟨f, hf, -⟩ := id hredone
    cases hrow : (repo.recordAll events).rows item with
    | none =>
      rw [h.condensed.none_iff.mp hrow] at hf
      simp at hf
    | some row =>
      obtain ⟨g, hg, hlt⟩ := (hbelow row hrow).mpr hredone
      exact absurd (hpeak row hrow g hg) (Nat.not_le.mpr hlt)
  · intro hnot row hrow e he
    by_contra hlt
    exact hnot ((hbelow row hrow).mp ⟨e, he, Nat.lt_of_not_le hlt⟩)

/-- **Recording events again changes nothing**, whichever and however often and in whatever order,
exactly where no new round begins after the last event of the highest stage. -/
theorem replay_safe_iff (h : InOrder repo item events) :
    (∀ replays : List Recording, (∀ r ∈ replays, ∃ e ∈ events, r.Rerecords e) →
      ((repo.recordAll events).recordAll replays).stageStatus item =
        (repo.recordAll events).stageStatus item) ↔ ¬RedoneAfterPeak events := by
  rw [← peak_iff h]
  constructor
  · intro hsafe
    exact h.condensed.atPeak_of_safe hsafe
  · intro hpeak replays hreplays
    have hsame := (h.condensed.rerecordAll hpeak hreplays).core_eq
    have hcore := congrArg (Option.map fun c => (c.1, c.2.1)) hsame
    rw [coreAt, coreAt, Option.map_map, Option.map_map] at hcore
    exact hcore

/-- No events and no rows. -/
def emptyLifecycle : LifecycleRepo := ⟨fun _ => none, fun _ => none⟩

/-- A film. -/
def filmItem : LifecycleItem := ⟨of "01J9", 0, 0⟩

/-- The film is found in the library. -/
def libraryPresent (time : ℕ) : Recording :=
  { eventKey := of "library-history:1", item := filmItem, stage := .inLibrary, status := .succeeded
    eventType := of "reconcile.library.present", occurredAt := time }

/-- The film is put into the downloader. -/
def downloadQueued (time : ℕ) : Recording :=
  { eventKey := of "download:1", item := filmItem, stage := .downloadQueued, status := .queued
    eventType := of "download.queued", occurredAt := time }

/-- A film that reached the library stays there. -/
theorem library_kept :
    (emptyLifecycle.recordAll [downloadQueued 1, libraryPresent 2]).stageStatus filmItem =
        some (.inLibrary, .succeeded) ∧
      ∀ replays : List Recording,
        (∀ r ∈ replays, ∃ e ∈ [downloadQueued 1, libraryPresent 2], r.Rerecords e) →
        ((emptyLifecycle.recordAll [downloadQueued 1, libraryPresent 2]).recordAll
            replays).stageStatus filmItem =
          (emptyLifecycle.recordAll [downloadQueued 1, libraryPresent 2]).stageStatus filmItem :=
  ⟨by decide +kernel, (replay_safe_iff
    ⟨by decide +kernel, by decide +kernel, by decide, fun _ _ => rfl, rfl⟩).mpr (by decide +kernel)⟩

/-- A film of the library that is downloaded again is put back there by the old event. -/
theorem redownload_hidden :
    (emptyLifecycle.recordAll [libraryPresent 1, downloadQueued 2]).stageStatus filmItem =
        some (.downloadQueued, .queued) ∧
      ((emptyLifecycle.recordAll [libraryPresent 1, downloadQueued 2]).recordAll
        [libraryPresent 1]).stageStatus filmItem = some (.inLibrary, .succeeded) := by
  decide +kernel

end WolfNas
